namespace LayoutLexer.Text.Utf8

/-!
# Where bytes stop being UTF-8

A character is a lead byte and the continuation bytes it asks for, each within
bounds that exclude overlong forms, surrogates and code points that are too
large. The first sequence that breaks these rules is reported with its index:
either its bytes are wrong, or the input ends inside it.
-/

/-- The bounds of a continuation byte, both included. -/
structure Bounds where
  low : UInt8
  high : UInt8
  deriving Repr, DecidableEq

/-- Whether a byte lies within bounds. -/
def Bounds.admit (bounds : Bounds) (byte : UInt8) : Bool :=
  bounds.low ≤ byte && byte ≤ bounds.high

/-- The bounds of a continuation byte that is not restricted further. -/
def continuation : Bounds :=
  ⟨0x80, 0xBF⟩

/-- The continuation bytes a lead byte asks for; some bytes lead nothing. -/
def continuations? (lead : UInt8) : Option (List Bounds) :=
  if lead ≤ 0x7F then
    some []
  else if lead < 0xC2 then
    none
  else if lead ≤ 0xDF then
    some [continuation]
  else if lead = 0xE0 then
    some [⟨0xA0, 0xBF⟩, continuation]
  else if lead = 0xED then
    some [⟨0x80, 0x9F⟩, continuation]
  else if lead ≤ 0xEF then
    some [continuation, continuation]
  else if lead = 0xF0 then
    some [⟨0x90, 0xBF⟩, continuation, continuation]
  else if lead ≤ 0xF3 then
    some [continuation, continuation, continuation]
  else if lead = 0xF4 then
    some [⟨0x80, 0x8F⟩, continuation, continuation]
  else
    none

/-- How the bytes behind a lead byte compare with those asked for. -/
inductive Follow where
  /-- All are there. -/
  | complete
  /-- The byte after this many good ones is wrong. -/
  | broken (good : Nat)
  /-- The input ends before the last of them. -/
  | ended
  deriving Repr, DecidableEq

/-- Compare the bytes behind a lead byte with those asked for. -/
def follow : List Bounds → List UInt8 → Follow
  | [], _ =>
      .complete
  | _ :: _, [] =>
      .ended
  | bounds :: others, byte :: rest =>
      if bounds.admit byte then
        match follow others rest with
        | .broken good => .broken (good + 1)
        | outcome => outcome
      else
        .broken 0

/-- The first sequence that is not UTF-8. -/
inductive Fault where
  /-- The bytes from an index on start no character. -/
  | invalid (length index : Nat)
  /-- The input ends inside the character that starts at an index. -/
  | incomplete (index : Nat)
  deriving Repr, DecidableEq

/-- The wording of a fault. -/
def Fault.message : Fault → String
  | .invalid length index =>
      "invalid utf-8 sequence of " ++ toString length ++
        " bytes from index " ++ toString index
  | .incomplete index =>
      "incomplete utf-8 byte sequence from index " ++ toString index

/--
The first fault of bytes that start at an index. The end of the input counts as
the start of a character that is not there, so there is always an answer.
-/
def firstFault (index : Nat) (bytes : List UInt8) : Fault :=
  match bytes with
  | [] =>
      .incomplete index
  | lead :: rest =>
      match continuations? lead with
      | none =>
          .invalid 1 index
      | some expected =>
          match follow expected rest with
          | .complete =>
              firstFault (index + 1 + expected.length)
                (rest.drop expected.length)
          | .broken good =>
              .invalid (good + 1) index
          | .ended =>
              .incomplete index
termination_by bytes.length
decreasing_by
  simp only [List.length_drop, List.length_cons]
  omega

end LayoutLexer.Text.Utf8
