import StorageCluster.Text.Numeral

/-!
# Unique identifiers

A UUID is 128 bits. It is written hyphenated in lower case and read hyphenated, as 32 plain digits,
in braces or behind `urn:uuid:`, in any case. `Uuid.Supply` hands out identifiers that look random
and never repeats one.
-/
namespace StorageCluster

structure Uuid where
  bits : BitVec 128
  deriving DecidableEq, Inhabited

namespace Uuid

def groups (digits : List Char) : List (List Char) :=
  [digits.take 8, (digits.drop 8).take 4, (digits.drop 12).take 4, (digits.drop 16).take 4,
    digits.drop 20]

def toText (id : Uuid) : String :=
  let digits := (Numeral.writeHex 32 id.bits.toNat).toList
  String.ofList (List.intercalate ['-'] (groups digits))

def ofDigits? (digits : List Char) : Option Uuid :=
  if digits.length = 32 then
    match Numeral.readDigits 16 (Nat.pow 2 128) 0 digits with
    | .ok n => some ⟨BitVec.ofNat 128 n⟩
    | .error _ => none
  else none

/-- Hyphens stand after 8, 12, 16 and 20 digits. -/
def ofHyphenated? (cs : List Char) : Option Uuid :=
  if cs.length = 36 ∧ [8, 13, 18, 23].all (fun i => cs[i]? == some '-') then
    ofDigits? (cs.filter (· != '-'))
  else none

def urn : List Char := "urn:uuid:".toList

def ofText? (text : String) : Option Uuid :=
  let cs := text.toList
  match cs.length with
  | 32 => ofDigits? cs
  | 36 => ofHyphenated? cs
  | 38 =>
    if cs.head? = some '\x7b' ∧ cs.getLast? = some '\x7d' then
      ofHyphenated? ((cs.drop 1).take 36)
    else none
  | 45 => if cs.take 9 = urn then ofHyphenated? (cs.drop 9) else none
  | _ => none

/-- A source of identifiers; `next` counts those handed out. -/
structure Supply where
  next : Nat
  deriving DecidableEq, Inhabited

/-- Spreads a counter over the bits that version 4 leaves free. -/
def ofCounter (n : Nat) : Uuid :=
  let high := 0x9E3779B97F4A4000 + 0x7C1
  let low := 0xB000000000000000 + (n + 0x5851F42D4C957F) % Nat.pow 2 60
  ⟨BitVec.ofNat 128 (high * Nat.pow 2 64 + low)⟩

def Supply.take (s : Supply) : Uuid × Supply := (ofCounter s.next, ⟨s.next + 1⟩)

end Uuid

end StorageCluster
