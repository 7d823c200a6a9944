/-! Where a byte sequence stops being UTF-8, in the terms in which the fault is reported. -/

namespace ProviderManual.Text

namespace Utf8

inductive Head where
  | character (width : Nat)
  | broken (width : Nat)
  | cut
  deriving DecidableEq, Repr

def isContinuation (b : UInt8) : Bool :=
  0x80 ≤ b && b ≤ 0xbf

def mayFollow (lead second : UInt8) : Bool :=
  if lead = 0xe0 then 0xa0 ≤ second && second ≤ 0xbf
  else if lead = 0xed then 0x80 ≤ second && second ≤ 0x9f
  else if lead = 0xf0 then 0x90 ≤ second && second ≤ 0xbf
  else if lead = 0xf4 then 0x80 ≤ second && second ≤ 0x8f
  else isContinuation second

def tail (seen : Nat) : Nat → List UInt8 → Head
  | 0, _ => .character seen
  | _ + 1, [] => .cut
  | left + 1, b :: bs => if isContinuation b then tail (seen + 1) left bs else .broken seen

def longTail (lead : UInt8) (left : Nat) : List UInt8 → Head
  | [] => .cut
  | b :: bs => if mayFollow lead b then tail 2 left bs else .broken 1

def head (lead : UInt8) (rest : List UInt8) : Head :=
  if lead < 0x80 then .character 1
  else if 0xc2 ≤ lead && lead ≤ 0xdf then tail 1 1 rest
  else if 0xe0 ≤ lead && lead ≤ 0xef then longTail lead 1 rest
  else if 0xf0 ≤ lead && lead ≤ 0xf4 then longTail lead 2 rest
  else .broken 1

/-- Where a byte sequence stops being UTF-8; `width` is absent when the input ends too early. -/
structure Fault where
  offset : Nat
  width : Option Nat
  deriving DecidableEq, Repr

def Fault.message (f : Fault) : String :=
  match f.width with
  | some n => s!"invalid utf-8 sequence of {n} bytes from index {f.offset}"
  | none => s!"incomplete utf-8 byte sequence from index {f.offset}"

def faultFrom (offset : Nat) (bytes : List UInt8) : Option Fault :=
  match bytes with
  | [] => none
  | b :: bs =>
      match head b bs with
      | .character width => faultFrom (offset + width) (bs.drop (width - 1))
      | .broken width => some ⟨offset, some width⟩
      | .cut => some ⟨offset, none⟩
termination_by bytes.length
decreasing_by simp only [List.length_drop, List.length_cons]; omega

def firstFault (bytes : List UInt8) : Option Fault :=
  faultFrom 0 bytes

end Utf8

def decodeUtf8 (bytes : ByteArray) : Except Utf8.Fault String :=
  match String.fromUTF8? bytes with
  | some s => .ok s
  | none => .error ((Utf8.firstFault bytes.data.toList).getD ⟨0, none⟩)

end ProviderManual.Text
