/-! # UTF-8

Bytes are read as characters from the first byte on. A fault says at which byte the first sequence begins that is no
character, and how many of its bytes belong together; a sequence that merely ends too early has no such number.
-/

namespace RouteDepot.Text

/-- Where bytes stop being UTF-8. -/
structure Utf8Fault where
  start : Nat
  /-- The number of bytes that belong together; absent when the bytes end inside a character. -/
  count : Option Nat
  deriving DecidableEq, Repr

/-- The wording of a fault. -/
def Utf8Fault.message : Utf8Fault → String
  | ⟨start, some count⟩ => s!"invalid utf-8 sequence of {count} bytes from index {start}"
  | ⟨start, none⟩ => s!"incomplete utf-8 byte sequence from index {start}"

/-- A character of which some bytes are read. -/
structure Utf8Pending where
  start : Nat
  /-- The number of bytes read. -/
  read : Nat
  /-- The number of bytes that come after the next one. -/
  later : Nat
  /-- The bounds of the next byte. -/
  low : Nat
  high : Nat
  /-- The bits read so far. -/
  bits : Nat
  deriving DecidableEq, Repr

/-- The character that begins with a byte from 128 on; the bounds of the second byte keep out surrogates,
numbers that are too large, and numbers that have a shorter form. -/
def Utf8Pending.ofLead? (start lead : Nat) : Option Utf8Pending :=
  if 0xC2 ≤ lead ∧ lead ≤ 0xDF then some ⟨start, 1, 0, 0x80, 0xBF, lead - 0xC0⟩
  else if 0xE0 ≤ lead ∧ lead ≤ 0xEF then
    let low := if lead = 0xE0 then 0xA0 else 0x80
    let high := if lead = 0xED then 0x9F else 0xBF
    some ⟨start, 1, 1, low, high, lead - 0xE0⟩
  else if 0xF0 ≤ lead ∧ lead ≤ 0xF4 then
    let low := if lead = 0xF0 then 0x90 else 0x80
    let high := if lead = 0xF4 then 0x8F else 0xBF
    some ⟨start, 1, 2, low, high, lead - 0xF0⟩
  else none

/-- The characters of bytes that stand at an index, behind those of a character that is read in part. -/
def charactersOfUtf8 (index : Nat) : Option Utf8Pending → List UInt8 → Except Utf8Fault (List Char)
  | none, [] => .ok []
  | some p, [] => .error ⟨p.start, none⟩
  | none, byte :: bytes =>
    if byte.toNat < 0x80 then
      (charactersOfUtf8 (index + 1) none bytes).map (Char.ofNat byte.toNat :: ·)
    else match Utf8Pending.ofLead? index byte.toNat with
      | none => .error ⟨index, some 1⟩
      | some p => charactersOfUtf8 (index + 1) (some p) bytes
  | some p, byte :: bytes =>
    if p.low ≤ byte.toNat ∧ byte.toNat ≤ p.high then
      let bits := 64 * p.bits + (byte.toNat - 0x80)
      match p.later with
      | 0 => (charactersOfUtf8 (index + 1) none bytes).map (Char.ofNat bits :: ·)
      | later + 1 => charactersOfUtf8 (index + 1) (some ⟨p.start, p.read + 1, later, 0x80, 0xBF, bits⟩) bytes
    else .error ⟨p.start, some p.read⟩

/-- The text of bytes. -/
def ofUtf8 (bytes : List UInt8) : Except Utf8Fault String :=
  (charactersOfUtf8 0 none bytes).map String.ofList

end RouteDepot.Text
