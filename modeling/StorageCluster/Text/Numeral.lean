/-!
# Numerals

Unsigned whole numbers in positional notation. A numeral is read from left to right; one plus sign
and zeros may lead, and the first fault met is the one reported.
-/
namespace StorageCluster.Numeral

inductive Fault
  | empty
  | invalidDigit
  | tooLarge
  deriving DecidableEq, Repr

def Fault.message : Fault → String
  | .empty => "cannot parse integer from empty string"
  | .invalidDigit => "invalid digit found in string"
  | .tooLarge => "number too large to fit in target type"

/-- The value of a digit in bases up to sixteen; letters of either case count from ten. -/
def digit? (base : Nat) (c : Char) : Option Nat :=
  let value :=
    if '0' ≤ c ∧ c ≤ '9' then some (c.toNat - '0'.toNat)
    else if 'a' ≤ c ∧ c ≤ 'f' then some (c.toNat - 'a'.toNat + 10)
    else if 'A' ≤ c ∧ c ≤ 'F' then some (c.toNat - 'A'.toNat + 10)
    else none
  value.filter (· < base)

/-- Digits are added to `acc`; every value on the way stays below `limit`. -/
def readDigits (base limit acc : Nat) : List Char → Except Fault Nat
  | [] => .ok acc
  | c :: rest =>
    match digit? base c with
    | none => .error .invalidDigit
    | some d =>
      if acc * base + d < limit then readDigits base limit (acc * base + d) rest
      else .error .tooLarge

/-- The number below `limit` that a text writes in `base`. -/
def read (base limit : Nat) (text : String) : Except Fault Nat :=
  match text.toList with
  | [] => .error .empty
  | ['+'] => .error .invalidDigit
  | '+' :: rest => readDigits base limit 0 rest
  | digits => readDigits base limit 0 digits

def readDecimal (limit : Nat) (text : String) : Except Fault Nat := read 10 limit text

def write (n : Nat) : String := toString n

/-- Lower-case hexadecimal digits, with zeros in front up to `width`. -/
def writeHex (width n : Nat) : String :=
  let digits := Nat.toDigits 16 n
  String.ofList (List.replicate (width - digits.length) '0' ++ digits)

/-- No sign, no leading zero, nothing but digits. -/
def isCanonical (text : String) : Bool :=
  match text.toList with
  | ['0'] => true
  | c :: rest => c != '0' && (c :: rest).all Char.isDigit
  | [] => false

end StorageCluster.Numeral
