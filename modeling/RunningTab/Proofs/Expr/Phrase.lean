import RunningTab.Decimal.Numeral
import RunningTab.Expr.Token

/-!
# Phrases and what they mean

The expressions that have a meaning, defined without a reader of them. A tree
(`RunningTab.Expr.Tree`) is what is meant, and its value is worked out by the structure of the tree
alone (`RunningTab.Expr.Tree.value`). A phrase (`RunningTab.Expr.Phrase`) is a tree as it is
written: with its parentheses, needed or not, its blanks and the spelling of its operators.

Two things stand between a phrase and its tree.

* **Parentheses.** A phrase is well formed (`RunningTab.Expr.Phrase.WellFormed`) if it has those
  that precedence needs: the left operand binds at least as tightly as its operator, the right one
  more tightly, and what a unary minus stands before is a numeral, a percent or a phrase in
  parentheses.
* **Shares.** A percent means a hundredth, unless it is written directly behind a plus or minus sign
  that is itself directly behind a numeral; then it means that many hundredths of the numeral. So
  the tree of a phrase (`RunningTab.Expr.Phrase.tree`) depends on what the phrase stands behind.

Every tree without shares can be written (`RunningTab.Expr.Tree.exists_writing`).
-/

namespace RunningTab.Expr

open Decimal (isFigure isPlainNumeral)

/-! ### Words -/

/-- A plain numeral: figures, of which one is a digit and at most one is a dot. -/
structure Numeral where
  chars : Text
  figures : chars.all isFigure = true
  plain : isPlainNumeral chars = true
  deriving DecidableEq

/-- The number that a numeral denotes. -/
def Numeral.value (n : Numeral) : Float :=
  Decimal.plainValue n.chars 0

/-- A text of blanks, or the empty one. -/
structure Blanks where
  chars : Text
  blank : chars.all Text.isBlank = true
  deriving DecidableEq

/-- No blanks. -/
def Blanks.none : Blanks := ⟨[], rfl⟩

/-- The four operations. -/
inductive Arithmetic where
  | sum
  | difference
  | product
  | quotient
  deriving DecidableEq, Repr

/-- **What the operations work out.** A quotient by zero is zero. -/
def Arithmetic.value : Arithmetic → Float → Float → Float
  | sum, a, b => a + b
  | difference, a, b => a - b
  | product, a, b => a * b
  | quotient, a, b => if b == 0.0 then 0.0 else a / b

/-- The signs that the operations are written with. -/
inductive Sign where
  | plus
  | minus
  | asterisk
  | cross
  | slash
  | obelus
  deriving DecidableEq, Repr

namespace Sign

/-- The character of a sign. -/
def char : Sign → Char
  | plus => '+'
  | minus => '-'
  | asterisk => '*'
  | cross => 'x'
  | slash => '/'
  | obelus => '÷'

/-- The operation that a sign stands for. -/
def operation : Sign → Arithmetic
  | plus => .sum
  | minus => .difference
  | asterisk | cross => .product
  | slash | obelus => .quotient

/-- How tightly a sign binds: sums and differences less than products and quotients. -/
def tightness (s : Sign) : Nat :=
  match s.operation with
  | .sum | .difference => 1
  | .product | .quotient => 2

/-- Signs bind less tightly than a unary minus. -/
theorem tightness_lt (s : Sign) : s.tightness < 3 := by
  cases s <;> decide

/-- Whether a percent behind the sign can be a share of a numeral before it. -/
def joinsShare (s : Sign) : Bool :=
  s == plus || s == minus

end Sign

/-! ### Trees -/

/-- **What an expression means.** -/
inductive Tree where
  | numeral (n : Numeral)
  /-- Hundredths, of one or of a numeral. -/
  | percent (whole : Option Numeral) (n : Numeral)
  | negation (t : Tree)
  | combination (op : Arithmetic) (left right : Tree)
  deriving DecidableEq

/-- **The value of a tree.** -/
def Tree.value : Tree → Float
  | numeral n => n.value
  | percent none n => n.value / 100.0
  | percent (some a) n => a.value * (n.value / 100.0)
  | negation t => -t.value
  | combination op l r => op.value l.value r.value

/-! ### Phrases -/

/-- **A tree as it is written**, but for the blanks at its ends. -/
inductive Phrase where
  | numeral (n : Numeral)
  | percent (n : Numeral)
  | parens (before : Blanks) (p : Phrase) (behind : Blanks)
  | minus (gap : Blanks) (p : Phrase)
  | binary (left : Phrase) (before : Blanks) (s : Sign) (behind : Blanks) (right : Phrase)
  deriving DecidableEq

namespace Phrase

/-- The text of a phrase. -/
def text : Phrase → Text
  | numeral n => n.chars
  | percent n => n.chars ++ ['%']
  | parens before p behind => '(' :: (before.chars ++ p.text ++ behind.chars ++ [')'])
  | minus gap p => '-' :: (gap.chars ++ p.text)
  | binary l before s behind r => l.text ++ before.chars ++ s.char :: (behind.chars ++ r.text)

/-- How tightly the parts of a phrase are bound together: a unary minus binds tighter than every
sign, and what is no operator at all cannot come apart. -/
def tightness : Phrase → Nat
  | numeral _ | percent _ | parens _ _ _ => 4
  | minus _ _ => 3
  | binary _ _ s _ _ => s.tightness

/-- **The phrases with the parentheses that precedence needs.** -/
def WellFormed : Phrase → Prop
  | numeral _ | percent _ => True
  | parens _ p _ => p.WellFormed
  | minus _ p => p.tightness = 4 ∧ p.WellFormed
  -- signs of equal tightness associate to the left
  | binary l _ s _ r =>
    s.tightness ≤ l.tightness ∧ s.tightness < r.tightness ∧ l.WellFormed ∧ r.WellFormed

instance decidableWellFormed : (p : Phrase) → Decidable p.WellFormed
  | numeral _ | percent _ => inferInstanceAs (Decidable True)
  | parens _ p _ => decidableWellFormed p
  | minus _ p =>
    have := decidableWellFormed p
    inferInstanceAs (Decidable (p.tightness = 4 ∧ p.WellFormed))
  | binary l _ s _ r =>
    have := decidableWellFormed l
    have := decidableWellFormed r
    inferInstanceAs (Decidable
      (s.tightness ≤ l.tightness ∧ s.tightness < r.tightness ∧ l.WellFormed ∧ r.WellFormed))

/-- The numeral at the end of a phrase, if the phrase ends with one that carries no percent sign. -/
def lastNumeral? : Phrase → Option Numeral
  | numeral n => some n
  | percent _ | parens _ _ _ => none
  | minus _ p => p.lastNumeral?
  | binary _ _ _ _ r => r.lastNumeral?

/-- What a percent at the start of the right operand is a share of: the numeral at the end of the
left one, if a plus or minus sign joins them without a blank. -/
def whole? (l : Phrase) (before : Blanks) (s : Sign) (behind : Blanks) : Option Numeral :=
  if s.joinsShare ∧ before = .none ∧ behind = .none then l.lastNumeral? else none

/-- **The tree of a phrase**, given what a percent at its start is a share of. -/
def tree : Option Numeral → Phrase → Tree
  | _, numeral n => .numeral n
  | whole, percent n => .percent whole n
  -- a parenthesis or a minus sign comes between a percent and what is before them
  | _, parens _ p _ => tree none p
  | _, minus _ p => .negation (tree none p)
  | whole, binary l before s behind r =>
    .combination s.operation (tree whole l) (tree (whole? l before s behind) r)

end Phrase

/-! ### Writings -/

/-- **A way of writing a tree**: a well-formed phrase that means it, with blanks around. -/
structure Writing (t : Tree) where
  before : Blanks
  phrase : Phrase
  behind : Blanks
  wellFormed : phrase.WellFormed
  tree_eq : phrase.tree none = t

/-- The text of a writing. -/
def Writing.text {t : Tree} (w : Writing t) : Text :=
  w.before.chars ++ w.phrase.text ++ w.behind.chars

/-- The sign that an operation is written with unless another is wanted. -/
def Arithmetic.sign : Arithmetic → Sign
  | sum => .plus
  | difference => .minus
  | product => .asterisk
  | quotient => .slash

namespace Tree

/-- The trees whose percents are all hundredths of one. -/
def Unshared : Tree → Prop
  | numeral _ => True
  | percent whole _ => whole = none
  | negation t => t.Unshared
  | combination _ l r => l.Unshared ∧ r.Unshared

/-- A tree written with every operand in parentheses. -/
def phrase : Tree → Phrase
  | numeral n => .numeral n
  | percent _ n => .percent n
  | negation t => .minus .none (.parens .none t.phrase .none)
  | combination op l r =>
    .binary (.parens .none l.phrase .none) .none op.sign .none (.parens .none r.phrase .none)

theorem wellFormed_phrase (t : Tree) : t.phrase.WellFormed := by
  induction t with
  | numeral n => trivial
  | percent whole n => trivial
  | negation t ih => exact ⟨rfl, ih⟩
  | combination op l r ihl ihr =>
    have hop : op.sign.tightness < 3 := op.sign.tightness_lt
    exact ⟨show _ ≤ 4 by omega, show _ < 4 by omega, ihl, ihr⟩

theorem tree_phrase {t : Tree} (h : t.Unshared) : t.phrase.tree none = t := by
  induction t with
  | numeral n => rfl
  | percent whole n => rw [phrase, Phrase.tree, show whole = none from h]
  | negation t ih => rw [phrase, Phrase.tree, Phrase.tree, ih h]
  | combination op l r ihl ihr =>
    have hop : op.sign.operation = op := by cases op <;> rfl
    rw [phrase, Phrase.tree, Phrase.tree, Phrase.tree, ihl h.1, ihr h.2, hop]

/-- **Every tree without shares can be written.** -/
theorem exists_writing {t : Tree} (h : t.Unshared) : Nonempty (Writing t) :=
  ⟨⟨.none, t.phrase, .none, t.wellFormed_phrase, t.tree_phrase h⟩⟩

end Tree

end RunningTab.Expr
