import InteropGen.Toml.Quoting

set_option autoImplicit false

/-!
# Numbers and dates of TOML, read

Integers may be written in four bases and have to fit into 64 bits.  Fractions, dates and times have
no field to go to, so only their form is checked.
-/

namespace InteropGen.Toml

def isDigitOf (base : Nat) (c : Char) : Bool :=
  match Json.hexValue c with
  | some n => n < base
  | none => false

/-- Digits with single underscores between them, returned without the underscores. -/
def digitRun (base : Nat) : List Char → List Char × List Char
  | [] => ([], [])
  | '_' :: d :: rest =>
    if isDigitOf base d then (d :: (digitRun base rest).1, (digitRun base rest).2)
    else ([], '_' :: d :: rest)
  | d :: rest =>
    if isDigitOf base d then (d :: (digitRun base rest).1, (digitRun base rest).2)
    else ([], d :: rest)

def digits (base : Nat) (cs : List Char) : Option (List Char × List Char) :=
  match cs with
  | d :: _ => if isDigitOf base d then some (digitRun base cs) else none
  | [] => none

def valueOf (base : Nat) (ds : List Char) : Nat :=
  ds.foldl (fun n d => n * base + (Json.hexValue d).getD 0) 0

/-- A lone zero, or digits that do not start with one. -/
def wholeDigits : List Char → Option (List Char × List Char)
  | '0' :: rest => some (['0'], rest)
  | cs => digits 10 cs

def int64? (i : Int) : Option Int :=
  if -9223372036854775808 ≤ i ∧ i ≤ 9223372036854775807 then some i else none

def takeSign : List Char → Bool × List Char
  | '-' :: rest => (true, rest)
  | '+' :: rest => (false, rest)
  | cs => (false, cs)

def based (base : Nat) (cs : List Char) : Option (Data × List Char) :=
  (digits base cs).bind fun (ds, rest) => (int64? (valueOf base ds)).map fun i => (.integer i, rest)

def readInteger : List Char → Option (Data × List Char)
  | '0' :: 'x' :: rest => based 16 rest
  | '0' :: 'o' :: rest => based 8 rest
  | '0' :: 'b' :: rest => based 2 rest
  | cs =>
    let (negative, body) := takeSign cs
    (wholeDigits body).bind fun (ds, rest) =>
      let n : Int := valueOf 10 ds
      (int64? (if negative then -n else n)).map fun i => (.integer i, rest)

def exponent? : List Char → Option (Int × List Char)
  | [] => none
  | c :: rest =>
    if c == 'e' || c == 'E' then
      let (negative, body) := takeSign rest
      (digits 10 body).map fun (ds, rest) =>
        let n : Int := valueOf 10 ds
        (if negative then -n else n, rest)
    else none

/-- Whether `n · 10 ^ e` rounds to a finite 64-bit binary fraction. -/
def isFinite (n : Nat) (e : Int) : Bool :=
  let limit := Nat.pow 2 1024 - Nat.pow 2 970
  if n = 0 then true
  else if 400 < e then false
  else if 0 ≤ e then n * Nat.pow 10 e.toNat < limit
  else if (Nat.toDigits 10 n).length + e < 300 then true
  else n < limit * Nat.pow 10 (-e).toNat

/-- A decimal fraction: a whole number with a fraction part, an exponent, or both.  One too large to
be finite is refused unless it is negative. -/
def readFraction (cs : List Char) : Option (Data × List Char) :=
  let (negative, body) := takeSign cs
  (wholeDigits body).bind fun (whole, rest) =>
    let parts : Option (List Char × Int × List Char) :=
      match rest with
      | '.' :: afterPoint =>
        (digits 10 afterPoint).map fun (fraction, rest) =>
          match exponent? rest with
          | some (e, rest) => (fraction, e, rest)
          | none => (fraction, 0, rest)
      | _ => (exponent? rest).map fun (e, rest) => ([], e, rest)
    parts.bind fun (fraction, e, rest) =>
      if negative || isFinite (valueOf 10 (whole ++ fraction)) (e - fraction.length) then
        some (.other, rest)
      else none

def readSpecial (cs : List Char) : Option (Data × List Char) :=
  match (takeSign cs).2 with
  | 'i' :: 'n' :: 'f' :: rest => some (.other, rest)
  | 'n' :: 'a' :: 'n' :: rest => some (.other, rest)
  | _ => none

/-- Exactly so many decimal digits, as a number. -/
def fixedDigits (count : Nat) (cs : List Char) : Option (Nat × List Char) :=
  let ds := cs.take count
  if ds.length = count ∧ ds.all Char.isDigit then some (valueOf 10 ds, cs.drop count) else none

def twoDigits (low high : Nat) (cs : List Char) : Option (Nat × List Char) :=
  (fixedDigits 2 cs).bind fun (n, rest) => if low ≤ n ∧ n ≤ high then some (n, rest) else none

def expect (c : Char) : List Char → Option (List Char)
  | d :: rest => if c = d then some rest else none
  | [] => none

def isLeapYear (year : Nat) : Bool :=
  year % 4 == 0 && (year % 100 != 0 || year % 400 == 0)

def daysIn (year month : Nat) : Nat :=
  if month = 2 then (if isLeapYear year then 29 else 28)
  else if month = 4 || month = 6 || month = 9 || month = 11 then 30
  else 31

def skipDate (cs : List Char) : Option (List Char) := do
  let (year, cs) ← fixedDigits 4 cs
  let cs ← expect '-' cs
  let (month, cs) ← twoDigits 1 12 cs
  let cs ← expect '-' cs
  let (_, cs) ← twoDigits 1 (daysIn year month) cs
  return cs

def skipTime (cs : List Char) : Option (List Char) := do
  let (_, cs) ← twoDigits 0 23 cs
  let cs ← expect ':' cs
  let (_, cs) ← twoDigits 0 59 cs
  let cs ← expect ':' cs
  let (_, cs) ← twoDigits 0 60 cs
  match cs with
  | '.' :: rest =>
    match rest with
    | d :: _ => if d.isDigit then some (rest.dropWhile Char.isDigit) else none
    | [] => none
  | _ => some cs

def skipOffset (cs : List Char) : Option (List Char) :=
  match cs with
  | 'Z' :: rest => some rest
  | 'z' :: rest => some rest
  | sign :: rest =>
    if sign = '+' || sign = '-' then do
      let (_, cs) ← twoDigits 0 23 rest
      let cs ← expect ':' cs
      let (_, cs) ← twoDigits 0 59 cs
      return cs
    else some cs
  | [] => some []

/-- Whether an hour and a colon stand here, which only a time can follow. -/
def startsTime (cs : List Char) : Bool :=
  match twoDigits 0 23 cs with
  | some (_, ':' :: _) => true
  | _ => false

def skipMoment (cs : List Char) : Option (List Char) :=
  match skipDate cs with
  | some rest =>
    match rest with
    | d :: afterDate =>
      if (d = 'T' || d = 't' || d = ' ') && startsTime afterDate then
        (skipTime afterDate).bind skipOffset
      else some rest
    | [] => some []
  | none => skipTime cs

/-- A date or a time is seen as a table whose only key belongs to no structure. -/
def moment : Data := .record [("moment", .other)]

def readNumber (cs : List Char) : Option (Data × List Char) :=
  match skipMoment cs with
  | some rest => some (moment, rest)
  | none =>
    match readFraction cs with
    | some r => some r
    | none =>
      match readSpecial cs with
      | some r => some r
      | none => readInteger cs

end InteropGen.Toml
