import TableStore.Sql.Statement
import TableStore.Sql.ValueGroup

/-! The grammar of statements as a relation between tokens and what they stand for. It says
nothing about the order in which a reader tries its rules. -/
namespace TableStore.Sql

/-- A word spells a verb whatever the case of its ASCII letters. -/
def Verb.Spells (v : Verb) (word : String) : Prop :=
  word.toList.map Char.toUpper = v.keyword.toList

instance (v : Verb) (word : String) : Decidable (v.Spells word) :=
  inferInstanceAs (Decidable (word.toList.map Char.toUpper = v.keyword.toList))

/-- Names of tables: ASCII letters, digits and underscores, at least one. -/
def IsName (name : String) : Prop :=
  name.toList ≠ [] ∧ ∀ c ∈ name.toList, c.isAlphanum = true ∨ c = '_'

/-- Words with commas between them. -/
inductive WordList : List Token → List String → Prop
  | one (w : String) : WordList [.word w] [w]
  | more (w : String) {ts : List Token} {ws : List String} (tail : WordList ts ws) :
      WordList (.word w :: .comma :: ts) (w :: ws)

/-- Literals with commas between them, and the values they stand for. -/
inductive LiteralList : List Token → List String → Prop
  | one {t : Token} {value : String} (literal : t.literal? = some value) :
      LiteralList [t] [value]
  | more {t : Token} {value : String} {ts : List Token} {values : List String}
      (literal : t.literal? = some value) (tail : LiteralList ts values) :
      LiteralList (t :: .comma :: ts) (value :: values)

/-- Assignments of literals to columns, with commas between them. -/
inductive AssignmentList : List Token → List (String × String) → Prop
  | one (column : String) {t : Token} {value : String} (literal : t.literal? = some value) :
      AssignmentList [.word column, .operator .eq, t] [(column, value)]
  | more (column : String) {t : Token} {value : String} {ts : List Token}
      {pairs : List (String × String)} (literal : t.literal? = some value)
      (tail : AssignmentList ts pairs) :
      AssignmentList (.word column :: .operator .eq :: t :: .comma :: ts)
        ((column, value) :: pairs)

inductive WhereClause : List Token → Option Condition → Prop
  | absent : WhereClause [] none
  | given (column : String) (op : Comparison) {t : Token} {value : String}
      (literal : t.literal? = some value) :
      WhereClause [.word "WHERE", .word column, .operator op, t] (some ⟨column, op, value⟩)

inductive OrderClause : List Token → Option String → Prop
  | absent : OrderClause [] none
  | given (column : String) :
      OrderClause [.word "ORDER", .word "BY", .word column] (some column)

/-- Tokens in which every parenthesis has its partner. -/
inductive Balanced : List Token → Prop
  | nil : Balanced []
  | plain {t : Token} {ts : List Token} (other : t ∉ [.openParen, .closeParen, .endOfText])
      (tail : Balanced ts) : Balanced (t :: ts)
  | group {us ts : List Token} (inner : Balanced us) (tail : Balanced ts) :
      Balanced (.openParen :: (us ++ .closeParen :: ts))

/-- A parenthesis up to its partner. The values are those of the text between the two. -/
def Group (text : List Char) (ts : List Spanned) (values : List String) : Prop :=
  ∃ (opening : Spanned) (inner : List Spanned) (closing : Spanned),
    ts = opening :: (inner ++ [closing]) ∧
    opening.token = .openParen ∧ Balanced (inner.map Spanned.token) ∧
    closing.token = .closeParen ∧
    ValueGroup.read (String.ofList (slice text opening.stop closing.start)) = .ok values

inductive GroupList (text : List Char) : List Spanned → List (List String) → Prop
  | one {ts : List Spanned} {values : List String} (group : Group text ts values) :
      GroupList text ts [values]
  | more {ts us : List Spanned} {u : Spanned} {values : List String} {others : List (List String)}
      (group : Group text ts values) (comma : u.token = .comma)
      (tail : GroupList text us others) : GroupList text (ts ++ u :: us) (values :: others)

/-- The five kinds of statements; `text` is the text in which the tokens stand. -/
inductive Production (text : List Char) : List Spanned → Statement → Prop
  | create {ts : List Spanned} {verb name : String} {cs us : List Token}
      {columns types : List String} (spells : Verb.create.Spells verb) (isName : IsName name)
      (listed : WordList cs columns) (typed : WordList us types)
      (tokens : ts.map Spanned.token = .word verb :: .word "TABLE" :: .word name ::
        .openParen :: (cs ++ .closeParen :: .word "WITH" :: .word "TYPES" ::
        .openParen :: (us ++ [.closeParen]))) :
      Production text ts { verb := .create, table := name, columns, groups := [types] }
  | insert {ts gs : List Spanned} {verb name : String} {cs : List Token}
      {columns : List String} {groups : List (List String)} (spells : Verb.insert.Spells verb)
      (isName : IsName name) (listed : WordList cs columns) (grouped : GroupList text gs groups)
      (tokens : ts.map Spanned.token = .word verb :: .word "INTO" :: .word name ::
        .openParen :: (cs ++ [.closeParen, .word "VALUES"])) :
      Production text (ts ++ gs) { verb := .insert, table := name, columns, groups }
  | select {ts : List Spanned} {verb name : String} {cs ws os : List Token}
      {columns : List String} {condition : Option Condition} {order : Option String}
      (spells : Verb.select.Spells verb) (isName : IsName name) (listed : WordList cs columns)
      (filtered : WhereClause ws condition) (ordered : OrderClause os order)
      (tokens : ts.map Spanned.token = .word verb :: (cs ++ .word "FROM" :: .word name ::
        (ws ++ os))) :
      Production text ts { verb := .select, table := name, columns, condition, order }
  | update {ts : List Spanned} {verb name : String} {as ws : List Token}
      {pairs : List (String × String)} {condition : Option Condition}
      (spells : Verb.update.Spells verb) (isName : IsName name)
      (assigned : AssignmentList as pairs) (filtered : WhereClause ws condition)
      (tokens : ts.map Spanned.token = .word verb :: .word name :: .word "SET" :: (as ++ ws)) :
      Production text ts
        { verb := .update, table := name, columns := pairs.map Prod.fst,
          groups := [pairs.map Prod.snd], condition }
  | delete {ts : List Spanned} {verb name : String} {ws : List Token}
      {condition : Option Condition} (spells : Verb.delete.Spells verb) (isName : IsName name)
      (filtered : WhereClause ws condition)
      (tokens : ts.map Spanned.token = .word verb :: .word "FROM" :: .word name :: ws) :
      Production text ts { verb := .delete, table := name, condition }

/-- A statement begins with a word that spells its verb. -/
theorem Production.head {text : List Char} {ts : List Spanned} {s : Statement}
    (h : Production text ts s) : ∃ u us w, ts = u :: us ∧ u.token = .word w ∧ s.verb.Spells w := by
  have first {v : Verb} {ts : List Spanned} {w : String} {as : List Token} (spells : v.Spells w)
      (h : ts.map Spanned.token = .word w :: as) :
      ∃ u us w', ts = u :: us ∧ u.token = .word w' ∧ v.Spells w' := by
    obtain ⟨u, us, rfl, hu, -⟩ := List.map_eq_cons_iff.mp h
    exact ⟨u, us, w, rfl, hu, spells⟩
  cases h with
  | create spells isName listed typed tokens => exact first spells tokens
  | insert spells isName listed grouped tokens =>
    obtain ⟨u, us, w, rfl, hu, spells⟩ := first spells tokens
    exact ⟨u, us ++ _, w, rfl, hu, spells⟩
  | select spells isName listed filtered ordered tokens => exact first spells tokens
  | update spells isName assigned filtered tokens => exact first spells tokens
  | delete spells isName filtered tokens => exact first spells tokens

/-- Only the groups of an insertion are read from the text and not from the tokens. -/
theorem Production.congr_tokens {text text' : List Char} {ts us : List Spanned} {s : Statement}
    (h : Production text ts s) (hs : s.verb ≠ .insert)
    (hus : us.map Spanned.token = ts.map Spanned.token) : Production text' us s := by
  cases h with
  | create spells isName listed typed tokens =>
    exact .create spells isName listed typed (hus.trans tokens)
  | insert => exact absurd rfl hs
  | select spells isName listed filtered ordered tokens =>
    exact .select spells isName listed filtered ordered (hus.trans tokens)
  | update spells isName assigned filtered tokens =>
    exact .update spells isName assigned filtered (hus.trans tokens)
  | delete spells isName filtered tokens =>
    exact .delete spells isName filtered (hus.trans tokens)

section EndOfText

variable {text : List Char} {ts : List Spanned} {t : Token} {as : List Token}

theorem ne_endOfText_of_literal {value : String} (h : t.literal? = some value) :
    .endOfText ≠ t := by
  rintro rfl
  cases h

theorem WordList.endOfText_notMem {ws : List String} (h : WordList as ws) :
    .endOfText ∉ as := by
  induction h with
  | one w => simp
  | more w tail ih => simp [ih]

theorem AssignmentList.endOfText_notMem {pairs : List (String × String)}
    (h : AssignmentList as pairs) : .endOfText ∉ as := by
  induction h with
  | one column literal => simp [ne_endOfText_of_literal literal]
  | more column literal tail ih => simp [ne_endOfText_of_literal literal, ih]

theorem WhereClause.endOfText_notMem {condition : Option Condition}
    (h : WhereClause as condition) : .endOfText ∉ as := by
  cases h with
  | absent => simp
  | given column op literal => simp [ne_endOfText_of_literal literal]

theorem OrderClause.endOfText_notMem {order : Option String} (h : OrderClause as order) :
    .endOfText ∉ as := by
  cases h <;> simp

theorem Balanced.endOfText_notMem (h : Balanced as) : .endOfText ∉ as := by
  induction h with
  | nil => simp
  | plain other tail ih =>
    simp only [List.mem_cons, List.not_mem_nil, or_false, not_or] at other
    simp [Ne.symm other.2.2, ih]
  | group inner tail ihInner ihTail => simp [ihInner, ihTail]

theorem GroupList.endOfText_notMem {groups : List (List String)} (h : GroupList text ts groups) :
    .endOfText ∉ ts.map Spanned.token := by
  have one {ts : List Spanned} {values : List String} (group : Group text ts values) :
      .endOfText ∉ ts.map Spanned.token := by
    obtain ⟨opening, inner, closing, rfl, hopening, balanced, hclosing, -⟩ := group
    rw [List.map_cons, List.map_append, hopening, List.map_singleton, hclosing]
    simpa using Balanced.endOfText_notMem balanced
  induction h with
  | one group => exact one group
  | more group comma tail ih =>
    rw [List.map_append, List.map_cons, comma]
    simpa using ⟨by simpa using one group, by simpa using ih⟩

theorem Production.endOfText_notMem {s : Statement} (h : Production text ts s) :
    .endOfText ∉ ts.map Spanned.token := by
  cases h with
  | create spells isName listed typed tokens =>
    rw [tokens]
    simp [WordList.endOfText_notMem listed, WordList.endOfText_notMem typed]
  | insert spells isName listed grouped tokens =>
    rw [List.map_append, tokens]
    simp [WordList.endOfText_notMem listed]
    simpa using GroupList.endOfText_notMem grouped
  | select spells isName listed filtered ordered tokens =>
    rw [tokens]
    simp [WordList.endOfText_notMem listed, WhereClause.endOfText_notMem filtered,
      OrderClause.endOfText_notMem ordered]
  | update spells isName assigned filtered tokens =>
    rw [tokens]
    simp [AssignmentList.endOfText_notMem assigned, WhereClause.endOfText_notMem filtered]
  | delete spells isName filtered tokens =>
    rw [tokens]
    simp [WhereClause.endOfText_notMem filtered]

end EndOfText

end TableStore.Sql
