import TableStore.Text.Cluster.Kind

/-! Text cut into clusters: what a reader takes for one character, such as a letter with
its marks, a syllable, a flag or a family of pictures. -/
namespace TableStore.Text.Cluster

/-- Whether a picture before the marks at the end of a cluster waits for another one;
the cluster, its last character first, ends in a joiner that is left out here. -/
def awaitsPictograph (before : List Char) : Bool :=
  match before.dropWhile fun c => Kind.of c = .extend with
  | c :: _ => Kind.of c = .pictograph
  | [] => false

/-- Whether a consonant and a linker after it wait for another consonant. -/
def awaitsConsonant (before : List Char) : Bool :=
  (before.takeWhile isBetweenConsonants).any isLinker &&
    match before.dropWhile isBetweenConsonants with
    | c :: _ => Kind.of c = .consonant
    | [] => false

def awaitsRegional (before : List Char) : Bool :=
  (before.takeWhile fun c => Kind.of c = .regional).length % 2 = 1

/-- Whether a cluster, its last character first, goes on with a character. -/
def joins (before : List Char) (c : Char) : Bool :=
  match before with
  | [] => true
  | last :: earlier =>
    match Kind.of last, Kind.of c with
    | .carriageReturn, .lineFeed => true
    | .carriageReturn, _ | .lineFeed, _ | .control, _ => false
    | _, .carriageReturn | _, .lineFeed | _, .control => false
    | .initial, .initial | .initial, .medial => true
    | .initial, .openSyllable | .initial, .closedSyllable => true
    | .openSyllable, .medial | .openSyllable, .final => true
    | .medial, .medial | .medial, .final => true
    | .closedSyllable, .final | .final, .final => true
    | _, .extend | _, .joiner | _, .spacing => true
    | .prepend, _ => true
    | _, .consonant => awaitsConsonant before
    | .joiner, .pictograph => awaitsPictograph earlier
    | .regional, .regional => awaitsRegional before
    | _, _ => false

/-- The clusters of a text of which the first, its last character first, has begun. -/
def splitFrom (before : List Char) : List Char → List (List Char)
  | [] => [before.reverse]
  | c :: rest =>
    if joins before c then splitFrom (c :: before) rest
    else before.reverse :: splitFrom [c] rest

def split : List Char → List (List Char)
  | [] => []
  | c :: rest => splitFrom [c] rest

end TableStore.Text.Cluster
