/-!
# Byte sequences

The bytes of a data slot, which are read at arbitrary offsets. The list of the bytes is the view in
which facts about them are stated.

## Main results

* `Bytes.slice_eq`: a slice is a window of the list view.
-/

namespace LiteralRecovery

/-- A sequence of bytes with access by position. -/
abbrev Bytes := Array UInt8

namespace Bytes

/-- The bytes from `offset` on, at most `length` of them and as many as there are. -/
def slice (bytes : Bytes) (offset length : Nat) : List UInt8 :=
  (bytes.extract offset (offset + length)).toList

theorem slice_eq (bytes : Bytes) (offset length : Nat) :
    bytes.slice offset length = (bytes.toList.drop offset).take length := by
  simp [slice, Array.toList_extract, List.extract_eq_take_drop]

end Bytes
end LiteralRecovery
