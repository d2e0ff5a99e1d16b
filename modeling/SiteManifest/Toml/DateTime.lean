import SiteManifest.Text.Digits

/-!
# Dates and times

A day, a time of day, or both, with an optional distance from universal time. A value is written in
one way: digits of a fraction end without zeros and stop at the ninth.
-/
namespace SiteManifest.Toml

open Text

structure Date where
  year : Nat
  month : Nat
  day : Nat
  deriving DecidableEq, Repr

structure Time where
  hour : Nat
  minute : Nat
  second : Nat
  /-- Digits of the fraction of a second, without zeros at the end. -/
  fraction : List Char
  deriving DecidableEq, Repr

inductive Offset where
  | universal
  /-- Minutes, to the east if positive. -/
  | minutes (n : Int)
  deriving DecidableEq, Repr

inductive DateTime where
  | date (date : Date)
  | time (time : Time)
  | both (date : Date) (time : Time) (offset : Option Offset)
  deriving DecidableEq, Repr

/-! ## Reading -/

/-- Two digits that stand for a number up to a limit. -/
def twoDigits? (greatest : Nat) (a b : Char) : Option Nat :=
  (digits? 10 [a, b]).filter (· ≤ greatest)

def isLeapYear (year : Nat) : Bool := year % 4 = 0 && (year % 100 ≠ 0 || year % 400 = 0)

def daysOf (year month : Nat) : Nat :=
  if month = 2 then if isLeapYear year then 29 else 28
  else if month ∈ [4, 6, 9, 11] then 30
  else 31

/-- A day in ten characters. -/
def date? : List Char → Option Date
  | [y₁, y₂, y₃, y₄, '-', m₁, m₂, '-', d₁, d₂] => do
    let year ← digits? 10 [y₁, y₂, y₃, y₄]
    let month ← twoDigits? 12 m₁ m₂
    let day ← twoDigits? (daysOf year month) d₁ d₂
    if 1 ≤ month && 1 ≤ day then some ⟨year, month, day⟩ else none
  | _ => none

/-- The digits of a fraction up to the ninth, without zeros at the end. -/
def fraction? : List Char → Option (List Char)
  | [] => some []
  | '.' :: c :: cs =>
    if (c :: cs).all Char.isDigit then
      some (((c :: cs).take 9).reverse.dropWhile (· == '0')).reverse
    else none
  | _ => none

def time? : List Char → Option Time
  | h₁ :: h₂ :: ':' :: m₁ :: m₂ :: ':' :: s₁ :: s₂ :: rest => do
    let hour ← twoDigits? 23 h₁ h₂
    let minute ← twoDigits? 59 m₁ m₂
    let second ← twoDigits? 60 s₁ s₂
    let fraction ← fraction? rest
    some ⟨hour, minute, second, fraction⟩
  | _ => none

def offset? : List Char → Option Offset
  | ['Z'] | ['z'] => some .universal
  | [sign, h₁, h₂, ':', m₁, m₂] => do
    let hours ← twoDigits? 23 h₁ h₂
    let minutes ← twoDigits? 59 m₁ m₂
    if sign = '+' then some (.minutes (hours * 60 + minutes))
    else if sign = '-' then some (.minutes (-(hours * 60 + minutes : Nat)))
    else none
  | _ => none

/-- Whether a character starts the distance from universal time. -/
def startsOffset (c : Char) : Bool := c ∈ ['Z', 'z', '+', '-']

/-- A time behind its day, with what follows it. -/
def timeOn? (date : Date) (cs : List Char) : Option DateTime := do
  let time ← time? (cs.takeWhile fun c => !startsOffset c)
  match cs.dropWhile fun c => !startsOffset c with
  | [] => some (.both date time none)
  | rest => (offset? rest).map fun offset => .both date time (some offset)

def dateTime? (cs : List Char) : Option DateTime :=
  match cs.drop 10 with
  | [] => ((date? cs).map .date).or ((time? cs).map .time)
  | c :: rest =>
    match date? (cs.take 10) with
    | some date => if c ∈ ['T', 't', ' '] then timeOn? date rest else none
    | none => (time? cs).map .time

/-! ## Writing -/

/-- Decimal digits, with zeros in front up to a width. -/
def padded (width n : Nat) : String :=
  let digits := Nat.toDigits 10 n
  String.ofList (List.replicate (width - digits.length) '0' ++ digits)

def Date.text (d : Date) : String :=
  padded 4 d.year ++ "-" ++ padded 2 d.month ++ "-" ++ padded 2 d.day

def Time.text (t : Time) : String :=
  padded 2 t.hour ++ ":" ++ padded 2 t.minute ++ ":" ++ padded 2 t.second ++
    if t.fraction.isEmpty then "" else "." ++ String.ofList t.fraction

def Offset.text : Offset → String
  | .universal => "Z"
  | .minutes n =>
    (if n < 0 then "-" else "+") ++ padded 2 (n.natAbs / 60) ++ ":" ++ padded 2 (n.natAbs % 60)

def DateTime.text : DateTime → String
  | .date d => d.text
  | .time t => t.text
  | .both d t offset => d.text ++ "T" ++ t.text ++ offset.elim "" Offset.text

end SiteManifest.Toml
