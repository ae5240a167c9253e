import Mathlib.Data.List.Forall2
import Parlance.Number.Reading
import Parlance.Program

/-!
# The token grammar, read off the trees

A tree is flattened to its leaves: the symbols of its tokens in order, each with the token that the
node beginning there keeps. `Leaf.FilledBy` says that a token stands at a leaf, so
`List.Forall₂ Leaf.FilledBy program.leaves tokens` says two things at once: the tokens are a
flattening of the program, and every node keeps the first token of its own segment.

The grammar of the leaves alone is ambiguous: a comma behind a nested call could go on with either
call. `callsLast` is the condition that takes the ambiguity away, a call standing only as the last
argument of another.

`forgetStarts` is the tree up to the tokens that its nodes keep. Tokens with the symbols of a tree
fill the leaves of a tree that is equal up to these (`statements_relabelled`), which reduces reading
a program "up to its stored tokens" to reading it exactly.
-/

namespace Parlance

/-! ## Leaves -/

/-- What a token says apart from its place: the kind of a word or a mark, the content of a name or
a literal. -/
inductive Symbol where
  | word (kind : TokenKind)
  | name (name : String)
  | text (content : String)
  | number (value : Number)
deriving DecidableEq

/-- The symbol of a token; a number token whose text is no number has none. -/
def Token.symbol? (token : Token) : Option Symbol :=
  match token.kind with
  | .identifier => some (.name token.text)
  | .text => some (.text token.text)
  | .number => (Number.read? token.text).map .number
  | kind => some (.word kind)

/-- A leaf of a tree: its symbol, and the token kept by the node that begins here, if one does. -/
structure Leaf where
  symbol : Symbol
  start? : Option Token
deriving DecidableEq

namespace Leaf

/-- A leaf where a node begins. -/
def first (symbol : Symbol) (start : Token) : Leaf := ⟨symbol, some start⟩

/-- A leaf inside a node. -/
def inner (symbol : Symbol) : Leaf := ⟨symbol, none⟩

/-- A word or a mark inside a node. -/
def word (kind : TokenKind) : Leaf := inner (.word kind)

/-- A token has the symbol of a leaf. -/
def SpelledBy (leaf : Leaf) (token : Token) : Prop := token.symbol? = some leaf.symbol

/-- A token stands at a leaf: it has the symbol, and a node that begins here keeps this token. -/
def FilledBy (leaf : Leaf) (token : Token) : Prop :=
  leaf.SpelledBy token ∧ ∀ start ∈ leaf.start?, start = token

end Leaf

mutual
/-- The leaves of an expression. -/
def Expression.leaves : Expression → List Leaf
  | .number start value => [.first (.number value) start]
  | .text start content => [.first (.text content) start]
  | .reference start name => [.first (.name name) start]
  | .call target => target.leaves
/-- The leaves of a call. -/
def Call.leaves : Call → List Leaf
  | .mk start name arguments =>
    .first (.word .doWord) start :: .inner (.name name) :: .word .andWord :: .word .useWord ::
      argumentLeaves arguments
/-- The leaves of arguments, with commas between them. -/
def argumentLeaves : List Expression → List Leaf
  | [] => []
  | [last] => last.leaves
  | first :: second :: others =>
    first.leaves ++ .word .comma :: argumentLeaves (second :: others)
end

mutual
/-- The leaves of a statement. -/
def Statement.leaves : Statement → List Leaf
  | .assignNumber start name value =>
    [.first (.name name) start, .word .hasWord, .word .valueWord, .inner (.number value),
     .word .semicolon]
  | .assignText start name content =>
    [.first (.name name) start, .word .meansWord, .inner (.text content), .word .semicolon]
  | .assignCall start name source =>
    .first (.word .setWord) start :: .inner (.name name) :: .word .toWord ::
      (source.leaves ++ [.word .semicolon])
  | .say start value => .first (.word .sayWord) start :: (value.leaves ++ [.word .semicolon])
  | .perform target => target.leaves ++ [.word .semicolon]
  | .group body => body.leaves
  | .ifThen start condition body =>
    .first (.word .ifWord) start :: (condition.leaves ++ body.leaves)
  | .ifElse start condition body alternative =>
    .first (.word .ifWord) start ::
      (condition.leaves ++ (body.leaves ++ .word .elseWord :: alternative.leaves))
  | .whileLoop start condition body =>
    .first (.word .whileWord) start :: (condition.leaves ++ body.leaves)
/-- The leaves of a block. -/
def Block.leaves : Block → List Leaf
  | .mk start statements =>
    .first (.word .leftBrace) start :: (statementLeaves statements ++ [.word .rightBrace])
/-- The leaves of statements, one behind the other. -/
def statementLeaves : List Statement → List Leaf
  | [] => []
  | first :: others => first.leaves ++ statementLeaves others
end

/-- The leaves of a program. -/
def Program.leaves (program : Program) : List Leaf := statementLeaves program

/-! ## Nested calls -/

/-- Whether an expression is a call. -/
def Expression.isCall : Expression → Bool
  | .call _ => true
  | _ => false

mutual
/-- Whether calls within an expression nest only as last arguments. -/
def Expression.callsLast : Expression → Bool
  | .call target => target.callsLast
  | _ => true
/-- Whether calls within a call nest only as last arguments. -/
def Call.callsLast : Call → Bool
  | .mk _ _ arguments => argumentsCallsLast arguments
/-- Whether no argument but the last is a call, and so on within the last. -/
def argumentsCallsLast : List Expression → Bool
  | [] => true
  | [last] => last.callsLast
  | first :: second :: others => !first.isCall && argumentsCallsLast (second :: others)
end

mutual
/-- Whether calls within a statement nest only as last arguments. -/
def Statement.callsLast : Statement → Bool
  | .assignNumber _ _ _ => true
  | .assignText _ _ _ => true
  | .assignCall _ _ source => source.callsLast
  | .say _ value => value.callsLast
  | .perform target => target.callsLast
  | .group body => body.callsLast
  | .ifThen _ condition body => condition.callsLast && body.callsLast
  | .ifElse _ condition body alternative =>
    condition.callsLast && body.callsLast && alternative.callsLast
  | .whileLoop _ condition body => condition.callsLast && body.callsLast
/-- Whether calls within a block nest only as last arguments. -/
def Block.callsLast : Block → Bool
  | .mk _ statements => statementsCallsLast statements
/-- Whether calls within statements nest only as last arguments. -/
def statementsCallsLast : List Statement → Bool
  | [] => true
  | first :: others => first.callsLast && statementsCallsLast others
end

/-- Whether calls within a program nest only as last arguments. -/
def Program.callsLast (program : Program) : Bool := statementsCallsLast program

/-! ## Trees up to the tokens they keep -/

/-- The token that stands for every token kept. -/
def Token.forgotten : Token := ⟨.blank, "", .start⟩

mutual
/-- An expression without the tokens it keeps. -/
def Expression.forgetStarts : Expression → Expression
  | .number _ value => .number .forgotten value
  | .text _ content => .text .forgotten content
  | .reference _ name => .reference .forgotten name
  | .call target => .call target.forgetStarts
/-- A call without the tokens it keeps. -/
def Call.forgetStarts : Call → Call
  | .mk _ name arguments => .mk .forgotten name (forgetArgumentStarts arguments)
/-- Arguments without the tokens they keep. -/
def forgetArgumentStarts : List Expression → List Expression
  | [] => []
  | first :: others => first.forgetStarts :: forgetArgumentStarts others
end

mutual
/-- A statement without the tokens it keeps. -/
def Statement.forgetStarts : Statement → Statement
  | .assignNumber _ name value => .assignNumber .forgotten name value
  | .assignText _ name content => .assignText .forgotten name content
  | .assignCall _ name source => .assignCall .forgotten name source.forgetStarts
  | .say _ value => .say .forgotten value.forgetStarts
  | .perform target => .perform target.forgetStarts
  | .group body => .group body.forgetStarts
  | .ifThen _ condition body => .ifThen .forgotten condition.forgetStarts body.forgetStarts
  | .ifElse _ condition body alternative =>
    .ifElse .forgotten condition.forgetStarts body.forgetStarts alternative.forgetStarts
  | .whileLoop _ condition body =>
    .whileLoop .forgotten condition.forgetStarts body.forgetStarts
/-- A block without the tokens it keeps. -/
def Block.forgetStarts : Block → Block
  | .mk _ statements => .mk .forgotten (forgetStatementStarts statements)
/-- Statements without the tokens they keep. -/
def forgetStatementStarts : List Statement → List Statement
  | [] => []
  | first :: others => first.forgetStarts :: forgetStatementStarts others
end

/-- A program without the tokens it keeps. -/
def Program.forgetStarts (program : Program) : Program := forgetStatementStarts program

/-! ## Tokens at leaves -/

/-- Every kind but three is a word, and a token of it says nothing more. -/
theorem Token.symbol?_eq_word {token : Token} {kind : TokenKind} :
    token.symbol? = some (.word kind) ↔
      token.kind = kind ∧ kind ≠ .identifier ∧ kind ≠ .text ∧ kind ≠ .number := by
  unfold Token.symbol?
  split <;> simp_all
  rintro rfl
  exact ⟨‹_›, ‹_›, ‹_›⟩

/-- A name is told by its spelling. -/
theorem Token.symbol?_eq_name {token : Token} {name : String} :
    token.symbol? = some (.name name) ↔ token.kind = .identifier ∧ token.text = name := by
  unfold Token.symbol?
  split <;> simp_all

/-- A text is told by its content. -/
theorem Token.symbol?_eq_text {token : Token} {content : String} :
    token.symbol? = some (.text content) ↔ token.kind = .text ∧ token.text = content := by
  unfold Token.symbol?
  split <;> simp_all

/-- A number is told by its value, so `1.0` and `1` are one symbol. -/
theorem Token.symbol?_eq_number {token : Token} {value : Number} :
    token.symbol? = some (.number value) ↔
      token.kind = .number ∧ Number.read? token.text = some value := by
  unfold Token.symbol?
  split <;> simp_all

namespace Leaf

@[simp] theorem symbol_first (symbol : Symbol) (start : Token) :
    (first symbol start).symbol = symbol := rfl

@[simp] theorem symbol_inner (symbol : Symbol) : (inner symbol).symbol = symbol := rfl

@[simp] theorem symbol_word (kind : TokenKind) : (word kind).symbol = .word kind := rfl

/-- The leaf that a tree keeps as its start is filled by this very token. -/
@[simp] theorem filledBy_first {symbol : Symbol} {start token : Token} :
    (first symbol start).FilledBy token ↔ token.symbol? = some symbol ∧ start = token := by
  simp [FilledBy, SpelledBy, first]

/-- Any other leaf is filled by every token with its symbol. -/
@[simp] theorem filledBy_inner {symbol : Symbol} {token : Token} :
    (inner symbol).FilledBy token ↔ token.symbol? = some symbol := by
  simp [FilledBy, SpelledBy, inner]

@[simp] theorem filledBy_word {kind : TokenKind} {token : Token} :
    (word kind).FilledBy token ↔ token.symbol? = some (.word kind) := filledBy_inner

end Leaf

/-- What stands at the leaves of two parts is what stands at the first, then at the second. -/
theorem forall₂_append_left_iff {α β : Type} {R : α → β → Prop} {as bs : List α} {cs : List β} :
    List.Forall₂ R (as ++ bs) cs ↔
      ∃ xs ys, List.Forall₂ R as xs ∧ List.Forall₂ R bs ys ∧ cs = xs ++ ys := by
  constructor
  · intro h
    refine ⟨cs.take as.length, cs.drop as.length, ?_, ?_, (List.take_append_drop _ _).symm⟩
    · simpa using List.forall₂_take as.length h
    · simpa using List.forall₂_drop as.length h
  · intro h
    obtain ⟨xs, ys, hxs, hys, rfl⟩ := h
    exact List.rel_append hxs hys

/-! ## Spelling a tree

A tree is spelled by tokens that fill its leaves, provided that its calls nest as the language reads
them. The rules below are the grammar, one for each construct. -/

/-- Tokens spell an expression. -/
def Expression.Spelled (value : Expression) (tokens : List Token) : Prop :=
  value.callsLast = true ∧ List.Forall₂ Leaf.FilledBy value.leaves tokens

/-- Tokens spell a call. -/
def Call.Spelled (target : Call) (tokens : List Token) : Prop :=
  target.callsLast = true ∧ List.Forall₂ Leaf.FilledBy target.leaves tokens

/-- Tokens spell arguments. -/
def ArgumentsSpelled (arguments : List Expression) (tokens : List Token) : Prop :=
  argumentsCallsLast arguments = true ∧ List.Forall₂ Leaf.FilledBy (argumentLeaves arguments) tokens

/-- Tokens spell a statement. -/
def Statement.Spelled (statement : Statement) (tokens : List Token) : Prop :=
  statement.callsLast = true ∧ List.Forall₂ Leaf.FilledBy statement.leaves tokens

/-- Tokens spell a block. -/
def Block.Spelled (block : Block) (tokens : List Token) : Prop :=
  block.callsLast = true ∧ List.Forall₂ Leaf.FilledBy block.leaves tokens

/-- Tokens spell statements. -/
def StatementsSpelled (statements : List Statement) (tokens : List Token) : Prop :=
  statementsCallsLast statements = true ∧
    List.Forall₂ Leaf.FilledBy (statementLeaves statements) tokens

theorem filled_nil_iff {tokens : List Token} :
    List.Forall₂ Leaf.FilledBy [] tokens ↔ tokens = [] := List.forall₂_nil_left_iff

/-- A leaf of a word is filled by a token of its kind. -/
theorem filled_word_cons_iff (kind : TokenKind) {leaves : List Leaf} {tokens : List Token}
    (hkind : kind ≠ .identifier ∧ kind ≠ .text ∧ kind ≠ .number) :
    List.Forall₂ Leaf.FilledBy (.word kind :: leaves) tokens ↔
      ∃ token rest, token.kind = kind ∧ List.Forall₂ Leaf.FilledBy leaves rest ∧
        tokens = token :: rest := by
  rw [List.forall₂_cons_left_iff]
  simp only [Leaf.filledBy_word, Token.symbol?_eq_word, and_iff_left hkind]

/-- The first leaf of a construct is filled by its start. -/
theorem filled_first_cons_iff {symbol : Symbol} {start : Token} {leaves : List Leaf}
    {tokens : List Token} :
    List.Forall₂ Leaf.FilledBy (.first symbol start :: leaves) tokens ↔
      start.symbol? = some symbol ∧
        ∃ rest, List.Forall₂ Leaf.FilledBy leaves rest ∧ tokens = start :: rest := by
  rw [List.forall₂_cons_left_iff]
  constructor
  · intro h
    obtain ⟨token, rest, hfilled, h, rfl⟩ := h
    obtain ⟨hsymbol, rfl⟩ := Leaf.filledBy_first.mp hfilled
    exact ⟨hsymbol, rest, h, rfl⟩
  · intro h
    obtain ⟨hsymbol, rest, h, rfl⟩ := h
    exact ⟨start, rest, Leaf.filledBy_first.mpr ⟨hsymbol, rfl⟩, h, rfl⟩

/-- A leaf within a construct is filled by one token with its symbol. -/
theorem filled_inner_cons_iff {symbol : Symbol} {leaves : List Leaf} {tokens : List Token} :
    List.Forall₂ Leaf.FilledBy (.inner symbol :: leaves) tokens ↔
      ∃ token rest, token.symbol? = some symbol ∧ List.Forall₂ Leaf.FilledBy leaves rest ∧
        tokens = token :: rest := by
  rw [List.forall₂_cons_left_iff]
  simp only [Leaf.filledBy_inner]

/-- A tree whose first leaf is a word begins with the token it keeps. -/
theorem filled_start_cons_iff {kind : TokenKind} {start : Token} {leaves : List Leaf}
    {tokens : List Token} (hkind : kind ≠ .identifier ∧ kind ≠ .text ∧ kind ≠ .number) :
    List.Forall₂ Leaf.FilledBy (.first (.word kind) start :: leaves) tokens ↔
      start.kind = kind ∧
        ∃ rest, List.Forall₂ Leaf.FilledBy leaves rest ∧ tokens = start :: rest := by
  rw [filled_first_cons_iff, Token.symbol?_eq_word, and_iff_left hkind]

/-- The last token of a construct that is closed by a mark. -/
theorem filled_closed_iff (kind : TokenKind) {leaves : List Leaf} {tokens : List Token}
    (hkind : kind ≠ .identifier ∧ kind ≠ .text ∧ kind ≠ .number) :
    List.Forall₂ Leaf.FilledBy (leaves ++ [.word kind]) tokens ↔
      ∃ front closed, List.Forall₂ Leaf.FilledBy leaves front ∧ closed.kind = kind ∧
        tokens = front ++ [closed] := by
  rw [forall₂_append_left_iff]
  constructor
  · intro h
    obtain ⟨front, _, hfront, hclosed, rfl⟩ := h
    obtain ⟨closed, _, hkind, hnil, rfl⟩ := (filled_word_cons_iff kind hkind).mp hclosed
    cases filled_nil_iff.mp hnil
    exact ⟨front, closed, hfront, hkind, rfl⟩
  · intro h
    obtain ⟨front, closed, hfront, hclosed, rfl⟩ := h
    have hlast := (filled_word_cons_iff kind hkind).mpr ⟨closed, [], hclosed, .nil, rfl⟩
    exact ⟨front, [closed], hfront, hlast, rfl⟩

namespace Expression

/-- A number is spelled by one token that is read as it. -/
theorem spelled_number_iff {start : Token} {value : Number} {tokens : List Token} :
    (number start value).Spelled tokens ↔
      start.kind = .number ∧ Number.read? start.text = some value ∧ tokens = [start] := by
  simp only [Spelled, leaves, callsLast, filled_first_cons_iff, filled_nil_iff,
    Token.symbol?_eq_number, exists_eq_left, true_and, and_assoc]

/-- A text is spelled by one token that holds it. -/
theorem spelled_text_iff {start : Token} {content : String} {tokens : List Token} :
    (text start content).Spelled tokens ↔
      start.kind = .text ∧ start.text = content ∧ tokens = [start] := by
  simp only [Spelled, leaves, callsLast, filled_first_cons_iff, filled_nil_iff,
    Token.symbol?_eq_text, exists_eq_left, true_and, and_assoc]

/-- A variable is spelled by its name. -/
theorem spelled_reference_iff {start : Token} {name : String} {tokens : List Token} :
    (reference start name).Spelled tokens ↔
      start.kind = .identifier ∧ start.text = name ∧ tokens = [start] := by
  simp only [Spelled, leaves, callsLast, filled_first_cons_iff, filled_nil_iff,
    Token.symbol?_eq_name, exists_eq_left, true_and, and_assoc]

theorem spelled_call_iff {target : Call} {tokens : List Token} :
    (call target).Spelled tokens ↔ target.Spelled tokens := Iff.rfl

end Expression

/-- A call is spelled by four tokens, and then its arguments. -/
theorem Call.spelled_mk_iff {start : Token} {name : String} {arguments : List Expression}
    {tokens : List Token} :
    (Call.mk start name arguments).Spelled tokens ↔
      start.kind = .doWord ∧ ∃ called joined used rest, called.kind = .identifier ∧
        called.text = name ∧ joined.kind = .andWord ∧ used.kind = .useWord ∧
          ArgumentsSpelled arguments rest ∧ tokens = start :: called :: joined :: used :: rest := by
  rw [Spelled, leaves, filled_start_cons_iff (by decide)]
  simp only [filled_inner_cons_iff, filled_word_cons_iff .andWord (by decide),
    filled_word_cons_iff .useWord (by decide), Token.symbol?_eq_name]
  constructor
  · intro h
    obtain ⟨hcalls, hstart, _, ⟨called, _, ⟨hcalled, hname⟩, ⟨joined, _, hjoined,
      ⟨used, rest, hused, h, rfl⟩, rfl⟩, rfl⟩, rfl⟩ := h
    exact ⟨hstart, called, joined, used, rest, hcalled, hname, hjoined, hused, ⟨hcalls, h⟩, rfl⟩
  · intro h
    obtain ⟨hstart, called, joined, used, rest, hcalled, hname, hjoined, hused, ⟨hcalls, h⟩,
      rfl⟩ := h
    exact ⟨hcalls, hstart, _, ⟨called, _, ⟨hcalled, hname⟩, ⟨joined, _, hjoined,
      ⟨used, rest, hused, h, rfl⟩, rfl⟩, rfl⟩, rfl⟩

theorem argumentsSpelled_nil_iff {tokens : List Token} :
    ArgumentsSpelled [] tokens ↔ tokens = [] := by
  simp only [ArgumentsSpelled, argumentsCallsLast, argumentLeaves, filled_nil_iff, true_and]

/-- A single argument needs no comma. -/
theorem argumentsSpelled_singleton_iff {value : Expression} {tokens : List Token} :
    ArgumentsSpelled [value] tokens ↔ value.Spelled tokens := Iff.rfl

/-- A comma goes on behind an argument that is no call. -/
theorem argumentsSpelled_cons_iff {first second : Expression} {others : List Expression}
    {tokens : List Token} :
    ArgumentsSpelled (first :: second :: others) tokens ↔
      first.isCall = false ∧ ∃ front comma back, first.Spelled front ∧ comma.kind = .comma ∧
        ArgumentsSpelled (second :: others) back ∧ tokens = front ++ comma :: back := by
  simp only [ArgumentsSpelled, argumentsCallsLast, argumentLeaves, forall₂_append_left_iff,
    filled_word_cons_iff .comma (by decide), Bool.and_eq_true, Bool.not_eq_true']
  constructor
  · intro h
    obtain ⟨⟨hcall, hcalls⟩, front, _, hfront, ⟨comma, back, hcomma, hback, rfl⟩, rfl⟩ := h
    -- What is no call has no calls within it.
    have hfirst : first.callsLast = true := by cases first <;> first | rfl | cases hcall
    exact ⟨hcall, front, comma, back, ⟨hfirst, hfront⟩, hcomma, ⟨hcalls, hback⟩, rfl⟩
  · intro h
    obtain ⟨hcall, front, comma, back, hfirst, hcomma, ⟨hcalls, hback⟩, rfl⟩ := h
    exact ⟨⟨hcall, hcalls⟩, front, _, hfirst.2, ⟨comma, back, hcomma, hback, rfl⟩, rfl⟩

namespace Statement

/-- `name has value number;` -/
theorem spelled_assignNumber_iff {start : Token} {name : String} {value : Number}
    {tokens : List Token} :
    (assignNumber start name value).Spelled tokens ↔
      start.kind = .identifier ∧ start.text = name ∧ ∃ has worth literal closed,
        has.kind = .hasWord ∧ worth.kind = .valueWord ∧ literal.kind = .number ∧
          Number.read? literal.text = some value ∧ closed.kind = .semicolon ∧
            tokens = [start, has, worth, literal, closed] := by
  simp only [Spelled, leaves, callsLast, filled_first_cons_iff, filled_inner_cons_iff,
    filled_word_cons_iff .hasWord (by decide), filled_nil_iff,
    filled_word_cons_iff .valueWord (by decide),
    filled_word_cons_iff .semicolon (by decide), Token.symbol?_eq_name,
    Token.symbol?_eq_number, true_and]
  constructor
  · intro h
    obtain ⟨⟨hstart, hname⟩, _, ⟨has, _, hhas, ⟨worth, _, hworth, ⟨literal, _, ⟨hliteral, hvalue⟩,
      ⟨closed, _, hclosed, rfl, rfl⟩, rfl⟩, rfl⟩, rfl⟩, rfl⟩ := h
    exact ⟨hstart, hname, has, worth, literal, closed, hhas, hworth, hliteral, hvalue, hclosed, rfl⟩
  · intro h
    obtain ⟨hstart, hname, has, worth, literal, closed, hhas, hworth, hliteral, hvalue, hclosed,
      rfl⟩ := h
    exact ⟨⟨hstart, hname⟩, _, ⟨has, _, hhas, ⟨worth, _, hworth, ⟨literal, _, ⟨hliteral, hvalue⟩,
      ⟨closed, _, hclosed, rfl, rfl⟩, rfl⟩, rfl⟩, rfl⟩, rfl⟩

/-- `name means "text";` -/
theorem spelled_assignText_iff {start : Token} {name content : String} {tokens : List Token} :
    (assignText start name content).Spelled tokens ↔
      start.kind = .identifier ∧ start.text = name ∧ ∃ means literal closed,
        means.kind = .meansWord ∧ literal.kind = .text ∧ literal.text = content ∧
          closed.kind = .semicolon ∧ tokens = [start, means, literal, closed] := by
  simp only [Spelled, leaves, callsLast, filled_first_cons_iff, filled_inner_cons_iff,
    filled_word_cons_iff .meansWord (by decide), filled_nil_iff,
    filled_word_cons_iff .semicolon (by decide), Token.symbol?_eq_name,
    Token.symbol?_eq_text, true_and]
  constructor
  · intro h
    obtain ⟨⟨hstart, hname⟩, _, ⟨means, _, hmeans, ⟨literal, _, ⟨hliteral, hcontent⟩,
      ⟨closed, _, hclosed, rfl, rfl⟩, rfl⟩, rfl⟩, rfl⟩ := h
    exact ⟨hstart, hname, means, literal, closed, hmeans, hliteral, hcontent, hclosed, rfl⟩
  · intro h
    obtain ⟨hstart, hname, means, literal, closed, hmeans, hliteral, hcontent, hclosed, rfl⟩ := h
    exact ⟨⟨hstart, hname⟩, _, ⟨means, _, hmeans, ⟨literal, _, ⟨hliteral, hcontent⟩,
      ⟨closed, _, hclosed, rfl, rfl⟩, rfl⟩, rfl⟩, rfl⟩

/-- `set name to` a call, and a semicolon. -/
theorem spelled_assignCall_iff {start : Token} {name : String} {source : Call}
    {tokens : List Token} :
    (assignCall start name source).Spelled tokens ↔
      start.kind = .setWord ∧ ∃ target joined rest closed, target.kind = .identifier ∧
        target.text = name ∧ joined.kind = .toWord ∧ source.Spelled rest ∧
          closed.kind = .semicolon ∧ tokens = start :: target :: joined :: (rest ++ [closed]) := by
  rw [Spelled, leaves, filled_start_cons_iff (by decide)]
  simp only [filled_inner_cons_iff, filled_word_cons_iff .toWord (by decide),
    filled_closed_iff .semicolon (by decide), Token.symbol?_eq_name]
  constructor
  · intro h
    obtain ⟨hcalls, hstart, _, ⟨target, _, ⟨htarget, hname⟩, ⟨joined, _, hjoined,
      ⟨rest, closed, hrest, hclosed, rfl⟩, rfl⟩, rfl⟩, rfl⟩ := h
    exact ⟨hstart, target, joined, rest, closed, htarget, hname, hjoined, ⟨hcalls, hrest⟩, hclosed,
      rfl⟩
  · intro h
    obtain ⟨hstart, target, joined, rest, closed, htarget, hname, hjoined, ⟨hcalls, hrest⟩, hclosed,
      rfl⟩ := h
    exact ⟨hcalls, hstart, _, ⟨target, _, ⟨htarget, hname⟩, ⟨joined, _, hjoined,
      ⟨rest, closed, hrest, hclosed, rfl⟩, rfl⟩, rfl⟩, rfl⟩

/-- `say`, an expression, and a semicolon. -/
theorem spelled_say_iff {start : Token} {value : Expression} {tokens : List Token} :
    (say start value).Spelled tokens ↔
      start.kind = .sayWord ∧ ∃ front closed, value.Spelled front ∧ closed.kind = .semicolon ∧
        tokens = start :: (front ++ [closed]) := by
  rw [Spelled, leaves, filled_start_cons_iff (by decide)]
  simp only [filled_closed_iff .semicolon (by decide)]
  constructor
  · intro h
    obtain ⟨hcalls, hstart, _, ⟨front, closed, hfront, hclosed, rfl⟩, rfl⟩ := h
    exact ⟨hstart, front, closed, ⟨hcalls, hfront⟩, hclosed, rfl⟩
  · intro h
    obtain ⟨hstart, front, closed, ⟨hcalls, hfront⟩, hclosed, rfl⟩ := h
    exact ⟨hcalls, hstart, _, ⟨front, closed, hfront, hclosed, rfl⟩, rfl⟩

/-- A call, and a semicolon. -/
theorem spelled_perform_iff {target : Call} {tokens : List Token} :
    (perform target).Spelled tokens ↔
      ∃ front closed, target.Spelled front ∧ closed.kind = .semicolon ∧
        tokens = front ++ [closed] := by
  rw [Spelled, leaves, filled_closed_iff .semicolon (by decide)]
  constructor
  · intro h
    obtain ⟨hcalls, front, closed, hfront, hclosed, rfl⟩ := h
    exact ⟨front, closed, ⟨hcalls, hfront⟩, hclosed, rfl⟩
  · intro h
    obtain ⟨front, closed, ⟨hcalls, hfront⟩, hclosed, rfl⟩ := h
    exact ⟨hcalls, front, closed, hfront, hclosed, rfl⟩

theorem spelled_group_iff {body : Block} {tokens : List Token} :
    (group body).Spelled tokens ↔ body.Spelled tokens := Iff.rfl

/-- `if`, an expression, and a block. -/
theorem spelled_ifThen_iff {start : Token} {condition : Expression} {body : Block}
    {tokens : List Token} :
    (ifThen start condition body).Spelled tokens ↔
      start.kind = .ifWord ∧ ∃ front back, condition.Spelled front ∧ body.Spelled back ∧
        tokens = start :: (front ++ back) := by
  rw [Spelled, leaves, filled_start_cons_iff (by decide)]
  simp only [callsLast, Bool.and_eq_true, forall₂_append_left_iff]
  constructor
  · intro h
    obtain ⟨⟨hcondition, hbody⟩, hstart, _, ⟨front, back, hfront, hback, rfl⟩, rfl⟩ := h
    exact ⟨hstart, front, back, ⟨hcondition, hfront⟩, ⟨hbody, hback⟩, rfl⟩
  · intro h
    obtain ⟨hstart, front, back, ⟨hcondition, hfront⟩, ⟨hbody, hback⟩, rfl⟩ := h
    exact ⟨⟨hcondition, hbody⟩, hstart, _, ⟨front, back, hfront, hback, rfl⟩, rfl⟩

/-- `if`, an expression, a block, `else`, and a block. -/
theorem spelled_ifElse_iff {start : Token} {condition : Expression} {body alternative : Block}
    {tokens : List Token} :
    (ifElse start condition body alternative).Spelled tokens ↔
      start.kind = .ifWord ∧ ∃ front middle other back, condition.Spelled front ∧
        body.Spelled middle ∧ other.kind = .elseWord ∧ alternative.Spelled back ∧
          tokens = start :: (front ++ (middle ++ other :: back)) := by
  rw [Spelled, leaves, filled_start_cons_iff (by decide)]
  simp only [callsLast, Bool.and_eq_true, forall₂_append_left_iff,
    filled_word_cons_iff .elseWord (by decide)]
  constructor
  · intro h
    obtain ⟨⟨⟨hcondition, hbody⟩, halternative⟩, hstart, _, ⟨front, _, hfront, ⟨middle, _, hmiddle,
      ⟨other, back, hother, hback, rfl⟩, rfl⟩, rfl⟩, rfl⟩ := h
    exact ⟨hstart, front, middle, other, back, ⟨hcondition, hfront⟩, ⟨hbody, hmiddle⟩, hother,
      ⟨halternative, hback⟩, rfl⟩
  · intro h
    obtain ⟨hstart, front, middle, other, back, ⟨hcondition, hfront⟩, ⟨hbody, hmiddle⟩, hother,
      ⟨halternative, hback⟩, rfl⟩ := h
    exact ⟨⟨⟨hcondition, hbody⟩, halternative⟩, hstart, _, ⟨front, _, hfront, ⟨middle, _, hmiddle,
      ⟨other, back, hother, hback, rfl⟩, rfl⟩, rfl⟩, rfl⟩

/-- `while`, an expression, and a block. -/
theorem spelled_whileLoop_iff {start : Token} {condition : Expression} {body : Block}
    {tokens : List Token} :
    (whileLoop start condition body).Spelled tokens ↔
      start.kind = .whileWord ∧ ∃ front back, condition.Spelled front ∧ body.Spelled back ∧
        tokens = start :: (front ++ back) := by
  rw [Spelled, leaves, filled_start_cons_iff (by decide)]
  simp only [callsLast, Bool.and_eq_true, forall₂_append_left_iff]
  constructor
  · intro h
    obtain ⟨⟨hcondition, hbody⟩, hstart, _, ⟨front, back, hfront, hback, rfl⟩, rfl⟩ := h
    exact ⟨hstart, front, back, ⟨hcondition, hfront⟩, ⟨hbody, hback⟩, rfl⟩
  · intro h
    obtain ⟨hstart, front, back, ⟨hcondition, hfront⟩, ⟨hbody, hback⟩, rfl⟩ := h
    exact ⟨⟨hcondition, hbody⟩, hstart, _, ⟨front, back, hfront, hback, rfl⟩, rfl⟩

end Statement

/-- A block is spelled by its statements between braces. -/
theorem Block.spelled_mk_iff {start : Token} {statements : List Statement} {tokens : List Token} :
    (Block.mk start statements).Spelled tokens ↔
      start.kind = .leftBrace ∧ ∃ body closed, StatementsSpelled statements body ∧
        closed.kind = .rightBrace ∧ tokens = start :: (body ++ [closed]) := by
  rw [Spelled, leaves, filled_start_cons_iff (by decide)]
  simp only [filled_closed_iff .rightBrace (by decide)]
  constructor
  · intro h
    obtain ⟨hcalls, hstart, _, ⟨body, closed, hbody, hclosed, rfl⟩, rfl⟩ := h
    exact ⟨hstart, body, closed, ⟨hcalls, hbody⟩, hclosed, rfl⟩
  · intro h
    obtain ⟨hstart, body, closed, ⟨hcalls, hbody⟩, hclosed, rfl⟩ := h
    exact ⟨hcalls, hstart, _, ⟨body, closed, hbody, hclosed, rfl⟩, rfl⟩

theorem statementsSpelled_nil_iff {tokens : List Token} :
    StatementsSpelled [] tokens ↔ tokens = [] := by
  simp only [StatementsSpelled, statementsCallsLast, statementLeaves, filled_nil_iff, true_and]

/-- Statements are spelled one behind the other, with nothing between them. -/
theorem statementsSpelled_cons_iff {first : Statement} {others : List Statement}
    {tokens : List Token} :
    StatementsSpelled (first :: others) tokens ↔
      ∃ front back, first.Spelled front ∧ StatementsSpelled others back ∧
        tokens = front ++ back := by
  simp only [StatementsSpelled, statementsCallsLast, statementLeaves, Bool.and_eq_true,
    forall₂_append_left_iff]
  constructor
  · intro h
    obtain ⟨⟨hfirst, hothers⟩, front, back, hfront, hback, rfl⟩ := h
    exact ⟨front, back, ⟨hfirst, hfront⟩, ⟨hothers, hback⟩, rfl⟩
  · intro h
    obtain ⟨front, back, ⟨hfirst, hfront⟩, ⟨hothers, hback⟩, rfl⟩ := h
    exact ⟨⟨hfirst, hothers⟩, front, back, hfront, hback, rfl⟩

/-! ## Relabelling -/

mutual
/-- Tokens with the symbols of an expression fill one that is equal up to its stored tokens. -/
theorem Expression.relabelled : ∀ (value : Expression) {tokens : List Token},
    List.Forall₂ Leaf.SpelledBy value.leaves tokens →
      ∃ other : Expression, other.forgetStarts = value.forgetStarts ∧
        List.Forall₂ Leaf.FilledBy other.leaves tokens
  | .number _ value, tokens, h => by
    simp only [Expression.leaves, List.forall₂_cons_left_iff, List.forall₂_nil_left_iff] at h
    obtain ⟨token, _, hsymbol, rfl, rfl⟩ := h
    exact ⟨.number token value, rfl, .cons (Leaf.filledBy_first.mpr ⟨hsymbol, rfl⟩) .nil⟩
  | .text _ content, tokens, h => by
    simp only [Expression.leaves, List.forall₂_cons_left_iff, List.forall₂_nil_left_iff] at h
    obtain ⟨token, _, hsymbol, rfl, rfl⟩ := h
    exact ⟨.text token content, rfl, .cons (Leaf.filledBy_first.mpr ⟨hsymbol, rfl⟩) .nil⟩
  | .reference _ name, tokens, h => by
    simp only [Expression.leaves, List.forall₂_cons_left_iff, List.forall₂_nil_left_iff] at h
    obtain ⟨token, _, hsymbol, rfl, rfl⟩ := h
    exact ⟨.reference token name, rfl, .cons (Leaf.filledBy_first.mpr ⟨hsymbol, rfl⟩) .nil⟩
  | .call target, tokens, h => by
    simp only [Expression.leaves] at h
    obtain ⟨other, hforget, hfilled⟩ := target.relabelled h
    exact ⟨.call other, by simp only [Expression.forgetStarts, hforget], hfilled⟩
/-- Tokens with the symbols of a call fill one that is equal up to its stored tokens. -/
theorem Call.relabelled : ∀ (target : Call) {tokens : List Token},
    List.Forall₂ Leaf.SpelledBy target.leaves tokens →
      ∃ other : Call, other.forgetStarts = target.forgetStarts ∧
        List.Forall₂ Leaf.FilledBy other.leaves tokens
  | .mk _ name arguments, tokens, h => by
    simp only [Call.leaves, List.forall₂_cons_left_iff] at h
    obtain ⟨start, _, hstart, ⟨called, _, hcalled, ⟨joined, _, hjoined, ⟨used, rest, hused, h, rfl⟩,
      rfl⟩, rfl⟩, rfl⟩ := h
    obtain ⟨others, hforget, hfilled⟩ := arguments_relabelled arguments h
    refine ⟨.mk start name others, by simp only [Call.forgetStarts, hforget], ?_⟩
    exact .cons (Leaf.filledBy_first.mpr ⟨hstart, rfl⟩) (.cons (Leaf.filledBy_inner.mpr hcalled)
      (.cons (Leaf.filledBy_word.mpr hjoined) (.cons (Leaf.filledBy_word.mpr hused) hfilled)))
/-- Tokens with the symbols of arguments fill some that are equal up to their stored tokens. -/
theorem arguments_relabelled : ∀ (arguments : List Expression) {tokens : List Token},
    List.Forall₂ Leaf.SpelledBy (argumentLeaves arguments) tokens →
      ∃ others : List Expression, forgetArgumentStarts others = forgetArgumentStarts arguments ∧
        List.Forall₂ Leaf.FilledBy (argumentLeaves others) tokens
  | [], tokens, h => by
    cases h
    exact ⟨[], rfl, .nil⟩
  | [last], tokens, h => by
    obtain ⟨other, hforget, hfilled⟩ := last.relabelled h
    exact ⟨[other], by simp only [forgetArgumentStarts, hforget], hfilled⟩
  | first :: second :: others, tokens, h => by
    simp only [argumentLeaves, forall₂_append_left_iff, List.forall₂_cons_left_iff] at h
    obtain ⟨front, _, hfront, ⟨comma, back, hcomma, hback, rfl⟩, rfl⟩ := h
    obtain ⟨first', hfirst, hfirst'⟩ := first.relabelled hfront
    obtain ⟨others', hothers, hothers'⟩ := arguments_relabelled (second :: others) hback
    -- The relabelled rest is not empty either, so a comma stands before it.
    match others', hothers, hothers' with
    | [], hothers, _ => simp [forgetArgumentStarts] at hothers
    | second' :: others', hothers, hothers' =>
      refine ⟨first' :: second' :: others', ?_, ?_⟩
      · rw [forgetArgumentStarts, hothers, hfirst, ← forgetArgumentStarts]
      · exact List.rel_append hfirst' (.cons (Leaf.filledBy_word.mpr hcomma) hothers')
end

mutual
/-- Tokens with the symbols of a statement fill one that is equal up to its stored tokens. -/
theorem Statement.relabelled : ∀ (statement : Statement) {tokens : List Token},
    List.Forall₂ Leaf.SpelledBy statement.leaves tokens →
      ∃ other : Statement, other.forgetStarts = statement.forgetStarts ∧
        List.Forall₂ Leaf.FilledBy other.leaves tokens
  | .assignNumber _ name value, tokens, h => by
    simp only [Statement.leaves, List.forall₂_cons_left_iff, List.forall₂_nil_left_iff] at h
    obtain ⟨start, _, hstart, ⟨_, _, hhas, ⟨_, _, hvalue, ⟨_, _, hnumber, ⟨_, _, hclosed, rfl, rfl⟩,
      rfl⟩, rfl⟩, rfl⟩, rfl⟩ := h
    refine ⟨.assignNumber start name value, rfl, ?_⟩
    exact .cons (Leaf.filledBy_first.mpr ⟨hstart, rfl⟩) (.cons (Leaf.filledBy_word.mpr hhas)
      (.cons (Leaf.filledBy_word.mpr hvalue) (.cons (Leaf.filledBy_inner.mpr hnumber)
        (.cons (Leaf.filledBy_word.mpr hclosed) .nil))))
  | .assignText _ name content, tokens, h => by
    simp only [Statement.leaves, List.forall₂_cons_left_iff, List.forall₂_nil_left_iff] at h
    obtain ⟨start, _, hstart, ⟨_, _, hmeans, ⟨_, _, htext, ⟨_, _, hclosed, rfl, rfl⟩, rfl⟩, rfl⟩,
      rfl⟩ := h
    refine ⟨.assignText start name content, rfl, ?_⟩
    exact .cons (Leaf.filledBy_first.mpr ⟨hstart, rfl⟩) (.cons (Leaf.filledBy_word.mpr hmeans)
      (.cons (Leaf.filledBy_inner.mpr htext) (.cons (Leaf.filledBy_word.mpr hclosed) .nil)))
  | .assignCall _ name source, tokens, h => by
    simp only [Statement.leaves, List.forall₂_cons_left_iff, List.forall₂_nil_left_iff,
      forall₂_append_left_iff] at h
    obtain ⟨start, _, hstart, ⟨_, _, hname, ⟨_, _, hto, ⟨_, _, hsource, ⟨_, _, hclosed, rfl, rfl⟩,
      rfl⟩, rfl⟩, rfl⟩, rfl⟩ := h
    obtain ⟨other, hforget, hfilled⟩ := source.relabelled hsource
    refine ⟨.assignCall start name other, by simp only [Statement.forgetStarts, hforget], ?_⟩
    exact .cons (Leaf.filledBy_first.mpr ⟨hstart, rfl⟩) (.cons (Leaf.filledBy_inner.mpr hname)
      (.cons (Leaf.filledBy_word.mpr hto)
        (List.rel_append hfilled (.cons (Leaf.filledBy_word.mpr hclosed) .nil))))
  | .say _ value, tokens, h => by
    simp only [Statement.leaves, List.forall₂_cons_left_iff, List.forall₂_nil_left_iff,
      forall₂_append_left_iff] at h
    obtain ⟨start, _, hstart, ⟨_, _, hvalue, ⟨_, _, hclosed, rfl, rfl⟩, rfl⟩, rfl⟩ := h
    obtain ⟨other, hforget, hfilled⟩ := value.relabelled hvalue
    refine ⟨.say start other, by simp only [Statement.forgetStarts, hforget], ?_⟩
    exact .cons (Leaf.filledBy_first.mpr ⟨hstart, rfl⟩)
      (List.rel_append hfilled (.cons (Leaf.filledBy_word.mpr hclosed) .nil))
  | .perform target, tokens, h => by
    simp only [Statement.leaves, List.forall₂_cons_left_iff, List.forall₂_nil_left_iff,
      forall₂_append_left_iff] at h
    obtain ⟨_, _, htarget, ⟨_, _, hclosed, rfl, rfl⟩, rfl⟩ := h
    obtain ⟨other, hforget, hfilled⟩ := target.relabelled htarget
    refine ⟨.perform other, by simp only [Statement.forgetStarts, hforget], ?_⟩
    exact List.rel_append hfilled (.cons (Leaf.filledBy_word.mpr hclosed) .nil)
  | .group body, tokens, h => by
    obtain ⟨other, hforget, hfilled⟩ := body.relabelled h
    exact ⟨.group other, by simp only [Statement.forgetStarts, hforget], hfilled⟩
  | .ifThen _ condition body, tokens, h => by
    simp only [Statement.leaves, List.forall₂_cons_left_iff, forall₂_append_left_iff] at h
    obtain ⟨start, _, hstart, ⟨_, _, hcondition, hbody, rfl⟩, rfl⟩ := h
    obtain ⟨condition', hforget, hfilled⟩ := condition.relabelled hcondition
    obtain ⟨body', hforget', hfilled'⟩ := body.relabelled hbody
    refine ⟨.ifThen start condition' body',
      by simp only [Statement.forgetStarts, hforget, hforget'], ?_⟩
    exact .cons (Leaf.filledBy_first.mpr ⟨hstart, rfl⟩) (List.rel_append hfilled hfilled')
  | .ifElse _ condition body alternative, tokens, h => by
    simp only [Statement.leaves, List.forall₂_cons_left_iff, forall₂_append_left_iff] at h
    obtain ⟨start, _, hstart, ⟨_, _, hcondition, ⟨_, _, hbody, ⟨_, _, helse, halternative, rfl⟩,
      rfl⟩, rfl⟩, rfl⟩ := h
    obtain ⟨condition', hforget, hfilled⟩ := condition.relabelled hcondition
    obtain ⟨body', hforget', hfilled'⟩ := body.relabelled hbody
    obtain ⟨alternative', hforget'', hfilled''⟩ := alternative.relabelled halternative
    refine ⟨.ifElse start condition' body' alternative',
      by simp only [Statement.forgetStarts, hforget, hforget', hforget''], ?_⟩
    exact .cons (Leaf.filledBy_first.mpr ⟨hstart, rfl⟩) (List.rel_append hfilled
      (List.rel_append hfilled' (.cons (Leaf.filledBy_word.mpr helse) hfilled'')))
  | .whileLoop _ condition body, tokens, h => by
    simp only [Statement.leaves, List.forall₂_cons_left_iff, forall₂_append_left_iff] at h
    obtain ⟨start, _, hstart, ⟨_, _, hcondition, hbody, rfl⟩, rfl⟩ := h
    obtain ⟨condition', hforget, hfilled⟩ := condition.relabelled hcondition
    obtain ⟨body', hforget', hfilled'⟩ := body.relabelled hbody
    refine ⟨.whileLoop start condition' body',
      by simp only [Statement.forgetStarts, hforget, hforget'], ?_⟩
    exact .cons (Leaf.filledBy_first.mpr ⟨hstart, rfl⟩) (List.rel_append hfilled hfilled')
/-- Tokens with the symbols of a block fill one that is equal up to its stored tokens. -/
theorem Block.relabelled : ∀ (block : Block) {tokens : List Token},
    List.Forall₂ Leaf.SpelledBy block.leaves tokens →
      ∃ other : Block, other.forgetStarts = block.forgetStarts ∧
        List.Forall₂ Leaf.FilledBy other.leaves tokens
  | .mk _ statements, tokens, h => by
    simp only [Block.leaves, List.forall₂_cons_left_iff, List.forall₂_nil_left_iff,
      forall₂_append_left_iff] at h
    obtain ⟨start, _, hstart, ⟨_, _, hstatements, ⟨_, _, hclosed, rfl, rfl⟩, rfl⟩, rfl⟩ := h
    obtain ⟨others, hforget, hfilled⟩ := statements_relabelled statements hstatements
    refine ⟨.mk start others, by simp only [Block.forgetStarts, hforget], ?_⟩
    exact .cons (Leaf.filledBy_first.mpr ⟨hstart, rfl⟩)
      (List.rel_append hfilled (.cons (Leaf.filledBy_word.mpr hclosed) .nil))
/-- Tokens with the symbols of statements fill some that are equal up to their stored tokens. -/
theorem statements_relabelled : ∀ (statements : List Statement) {tokens : List Token},
    List.Forall₂ Leaf.SpelledBy (statementLeaves statements) tokens →
      ∃ others : List Statement, forgetStatementStarts others = forgetStatementStarts statements ∧
        List.Forall₂ Leaf.FilledBy (statementLeaves others) tokens
  | [], tokens, h => by
    cases h
    exact ⟨[], rfl, .nil⟩
  | first :: others, tokens, h => by
    simp only [statementLeaves, forall₂_append_left_iff] at h
    obtain ⟨_, _, hfirst, hothers, rfl⟩ := h
    obtain ⟨first', hforget, hfilled⟩ := first.relabelled hfirst
    obtain ⟨others', hforget', hfilled'⟩ := statements_relabelled others hothers
    refine ⟨first' :: others', by simp only [forgetStatementStarts, hforget, hforget'], ?_⟩
    exact List.rel_append hfilled hfilled'
end

/-! ## No leaf ends the input -/

mutual
theorem Expression.symbol_ne_endOfInput : ∀ (value : Expression) {leaf : Leaf},
    leaf ∈ value.leaves → leaf.symbol ≠ .word .endOfInput
  | .number _ _, _, h => by simp_all [Expression.leaves]
  | .text _ _, _, h => by simp_all [Expression.leaves]
  | .reference _ _, _, h => by simp_all [Expression.leaves]
  | .call target, _, h => target.symbol_ne_endOfInput h
/-- No token of a call ends the input. -/
theorem Call.symbol_ne_endOfInput : ∀ (target : Call) {leaf : Leaf},
    leaf ∈ target.leaves → leaf.symbol ≠ .word .endOfInput
  | .mk _ _ arguments, leaf, h => by
    simp only [Call.leaves, List.mem_cons] at h
    rcases h with rfl | rfl | rfl | rfl | h
    · simp
    · simp
    · simp
    · simp
    · exact argumentSymbol_ne_endOfInput arguments h
theorem argumentSymbol_ne_endOfInput : ∀ (arguments : List Expression) {leaf : Leaf},
    leaf ∈ argumentLeaves arguments → leaf.symbol ≠ .word .endOfInput
  | [], _, h => by simp [argumentLeaves] at h
  | [last], _, h => last.symbol_ne_endOfInput h
  | first :: second :: others, leaf, h => by
    simp only [argumentLeaves, List.mem_append, List.mem_cons] at h
    rcases h with h | rfl | h
    · exact first.symbol_ne_endOfInput h
    · simp
    · exact argumentSymbol_ne_endOfInput (second :: others) h
end

mutual
/-- No token of a statement ends the input. -/
theorem Statement.symbol_ne_endOfInput : ∀ (statement : Statement) {leaf : Leaf},
    leaf ∈ statement.leaves → leaf.symbol ≠ .word .endOfInput
  | .assignNumber _ _ _, leaf, h => by
    simp only [Statement.leaves, List.mem_cons, List.not_mem_nil, or_false] at h
    rcases h with rfl | rfl | rfl | rfl | rfl <;> simp
  | .assignText _ _ _, leaf, h => by
    simp only [Statement.leaves, List.mem_cons, List.not_mem_nil, or_false] at h
    rcases h with rfl | rfl | rfl | rfl <;> simp
  | .assignCall _ _ source, leaf, h => by
    simp only [Statement.leaves, List.mem_append, List.mem_cons, List.not_mem_nil, or_false] at h
    rcases h with rfl | rfl | rfl | h | rfl
    case inr.inr.inr.inl => exact source.symbol_ne_endOfInput h
    all_goals simp
  | .say _ value, leaf, h => by
    simp only [Statement.leaves, List.mem_append, List.mem_cons, List.not_mem_nil, or_false] at h
    rcases h with rfl | h | rfl
    case inr.inl => exact value.symbol_ne_endOfInput h
    all_goals simp
  | .perform target, leaf, h => by
    simp only [Statement.leaves, List.mem_append, List.mem_cons, List.not_mem_nil, or_false] at h
    rcases h with h | rfl
    · exact target.symbol_ne_endOfInput h
    · simp
  | .group body, _, h => body.symbol_ne_endOfInput h
  | .ifThen _ condition body, leaf, h => by
    simp only [Statement.leaves, List.mem_append, List.mem_cons] at h
    rcases h with rfl | h | h
    · simp
    · exact condition.symbol_ne_endOfInput h
    · exact body.symbol_ne_endOfInput h
  | .ifElse _ condition body alternative, leaf, h => by
    simp only [Statement.leaves, List.mem_append, List.mem_cons] at h
    rcases h with rfl | h | h | rfl | h
    · simp
    · exact condition.symbol_ne_endOfInput h
    · exact body.symbol_ne_endOfInput h
    · simp
    · exact alternative.symbol_ne_endOfInput h
  | .whileLoop _ condition body, leaf, h => by
    simp only [Statement.leaves, List.mem_append, List.mem_cons] at h
    rcases h with rfl | h | h
    · simp
    · exact condition.symbol_ne_endOfInput h
    · exact body.symbol_ne_endOfInput h
theorem Block.symbol_ne_endOfInput : ∀ (block : Block) {leaf : Leaf},
    leaf ∈ block.leaves → leaf.symbol ≠ .word .endOfInput
  | .mk _ statements, leaf, h => by
    simp only [Block.leaves, List.mem_append, List.mem_cons, List.not_mem_nil, or_false] at h
    rcases h with rfl | h | rfl
    case inr.inl => exact statementSymbol_ne_endOfInput statements h
    all_goals simp
/-- No token of a program ends the input, so its end is found behind all of them. -/
theorem statementSymbol_ne_endOfInput : ∀ (statements : List Statement) {leaf : Leaf},
    leaf ∈ statementLeaves statements → leaf.symbol ≠ .word .endOfInput
  | [], _, h => by simp [statementLeaves] at h
  | first :: others, leaf, h => by
    rcases List.mem_append.mp h with h | h
    · exact first.symbol_ne_endOfInput h
    · exact statementSymbol_ne_endOfInput others h
end

/-- No token that spells statements ends the input. -/
theorem kind_ne_endOfInput_of_spelled {statements : List Statement} {tokens : List Token}
    (h : StatementsSpelled statements tokens) {token : Token} (htoken : token ∈ tokens) :
    token.kind ≠ .endOfInput := by
  obtain ⟨i, hi, rfl⟩ := List.getElem_of_mem htoken
  have hlength : i < (statementLeaves statements).length := by rwa [h.2.length_eq]
  have hfilled := (List.forall₂_iff_get.mp h.2).2 i hlength hi
  intro hkind
  refine statementSymbol_ne_endOfInput statements (List.getElem_mem hlength) ?_
  have hsymbol : tokens[i].symbol? = some (statementLeaves statements)[i].symbol := hfilled.1
  rw [Token.symbol?, hkind] at hsymbol
  exact (Option.some.inj hsymbol).symm

/-! ## The shape condition does not see stored tokens -/

/-- Whether an expression is a call does not depend on its start. -/
theorem Expression.isCall_forgetStarts (value : Expression) :
    value.forgetStarts.isCall = value.isCall := by
  cases value <;> rfl

mutual
/-- Whether an expression has its calls last does not depend on start tokens. -/
theorem Expression.callsLast_forgetStarts : ∀ value : Expression,
    value.forgetStarts.callsLast = value.callsLast
  | .number _ _ => rfl
  | .text _ _ => rfl
  | .reference _ _ => rfl
  | .call target => target.callsLast_forgetStarts
theorem Call.callsLast_forgetStarts : ∀ target : Call,
    target.forgetStarts.callsLast = target.callsLast
  | .mk _ _ arguments => argumentsCallsLast_forgetStarts arguments
theorem argumentsCallsLast_forgetStarts : ∀ arguments : List Expression,
    argumentsCallsLast (forgetArgumentStarts arguments) = argumentsCallsLast arguments
  | [] => rfl
  | [last] => last.callsLast_forgetStarts
  | first :: second :: others => by
    have hothers := argumentsCallsLast_forgetStarts (second :: others)
    simp only [forgetArgumentStarts] at hothers ⊢
    rw [argumentsCallsLast, argumentsCallsLast, first.isCall_forgetStarts, hothers]
end

mutual
theorem Statement.callsLast_forgetStarts : ∀ statement : Statement,
    statement.forgetStarts.callsLast = statement.callsLast
  | .assignNumber _ _ _ => rfl
  | .assignText _ _ _ => rfl
  | .assignCall _ _ source => source.callsLast_forgetStarts
  | .say _ value => value.callsLast_forgetStarts
  | .perform target => target.callsLast_forgetStarts
  | .group body => body.callsLast_forgetStarts
  | .ifThen _ condition body => by
    simp only [Statement.forgetStarts, Statement.callsLast, condition.callsLast_forgetStarts,
      body.callsLast_forgetStarts]
  | .ifElse _ condition body alternative => by
    simp only [Statement.forgetStarts, Statement.callsLast, condition.callsLast_forgetStarts,
      body.callsLast_forgetStarts, alternative.callsLast_forgetStarts]
  | .whileLoop _ condition body => by
    simp only [Statement.forgetStarts, Statement.callsLast, condition.callsLast_forgetStarts,
      body.callsLast_forgetStarts]
theorem Block.callsLast_forgetStarts : ∀ block : Block,
    block.forgetStarts.callsLast = block.callsLast
  | .mk _ statements => statementsCallsLast_forgetStarts statements
/-- Whether a program has its calls last among arguments does not depend on start tokens. -/
theorem statementsCallsLast_forgetStarts : ∀ statements : List Statement,
    statementsCallsLast (forgetStatementStarts statements) = statementsCallsLast statements
  | [] => rfl
  | first :: others => by
    simp only [forgetStatementStarts, statementsCallsLast, first.callsLast_forgetStarts,
      statementsCallsLast_forgetStarts others]
end

end Parlance
