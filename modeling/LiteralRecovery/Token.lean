import LiteralRecovery.Text.Hex

/-!
# Metadata tokens

A token names a row of a metadata table: the table number in the top byte, the row number in the
three bytes below it. Tokens are ordered by their 32-bit value, so by table first and row second.
-/

namespace LiteralRecovery

/-- A reference to a row of a metadata table. -/
structure Token where
  value : UInt32
deriving DecidableEq, Repr, Inhabited

namespace Token

/-- The number of the table, the top byte of the value. -/
def table (token : Token) : Nat :=
  token.value.toNat / 0x1000000

/-- The number of the row, the three low bytes of the value. -/
def row (token : Token) : Nat :=
  token.value.toNat % 0x1000000

/-- The order by value, as a test. -/
def le (a b : Token) : Bool :=
  a.value ≤ b.value

/-- The tokens of a list in ascending order, repetitions kept. -/
def sorted (tokens : List Token) : List Token :=
  tokens.mergeSort le

theorem le_total (a b : Token) : a.le b || b.le a := by
  simpa [le] using UInt32.le_total a.value b.value

theorem le_trans (a b c : Token) (hab : a.le b) (hbc : b.le c) : a.le c := by
  simp only [le, decide_eq_true_eq] at *
  exact UInt32.le_trans hab hbc

theorem le_antisymm {a b : Token} (hab : a.le b) (hba : b.le a) : a = b := by
  simp only [le, decide_eq_true_eq] at hab hba
  cases a
  cases b
  exact congrArg Token.mk (UInt32.le_antisymm hab hba)

theorem sorted_perm (tokens : List Token) : (sorted tokens).Perm tokens :=
  List.mergeSort_perm ..

theorem pairwise_sorted (tokens : List Token) : (sorted tokens).Pairwise fun a b => a.le b :=
  List.pairwise_mergeSort le_trans le_total tokens

/-- The short form: eight lower-case digits. -/
def render (token : Token) : String :=
  "0x" ++ Text.lowerHex 8 token.value.toNat

/-- The long form, which also takes the token apart. -/
def describe (token : Token) : String :=
  "Token(" ++ token.render ++ ", table: 0x" ++ Text.lowerHex 2 token.table ++ ", row: "
    ++ toString token.row ++ ")"

end Token
end LiteralRecovery
