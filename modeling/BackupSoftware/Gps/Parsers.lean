import BackupSoftware.Gps.Nmea

/-!
# The parsers of NMEA sentences

`gps_get_gga`, `gps_get_tm` and `gps_get_zda` check the sum of a line and walk along it
with `strtok`. A pointer to a token is the string from the token on. At the end of the
token there is a NUL by then, so that bytes read past it are those behind the comma and,
past the end of the line, what the buffer holds behind it.
-/

namespace BackupSoftware.Gps

open BackupSoftware.Library.Strings

def comma : UInt8 := 44

/-- The token at a pointer. -/
def token (p : List UInt8) : List UInt8 := p.takeWhile fun b => b ≠ comma

/-- The byte at `p + k`. `behind` are the bytes behind the NUL of the line. -/
def byteAt (behind : Nat → UInt8) (p : List UInt8) (k : Nat) : UInt8 :=
  if k = (token p).length then 0
  else if k < p.length then p.getD k 0
  else if k = p.length then 0
  else behind (k - p.length - 1)

/-- The string in `buf` after `memcpy(buf, p + k, 2)` to a buffer of zeros. -/
def twoChars (behind : Nat → UInt8) (p : List UInt8) (k : Nat) : List UInt8 :=
  [byteAt behind p k, byteAt behind p (k + 1)].takeWhile fun b => b ≠ 0

section Chain

variable {σ : Type}

/-- The chain `if(p){ ..; p = strtok(NULL, ","); }else return GPS_ERROR;`. Each link is given the
pointer to its token. -/
def parseChain : List (List UInt8 → σ → σ) → List UInt8 → σ → Int × σ
  | [], _, st => (gpsEok, st)
  | link :: links, s, st =>
      match strtok (· = comma) s with
      | none => (gpsError, st)
      | some (_, rest) => parseChain links rest (link (s.dropWhile (· = comma)) st)

/-- The pointer, `none` for NULL, is checked first and then the sum. -/
def parseLine (links : List (List UInt8 → σ → σ)) (rxbuf : Option (List UInt8)) (st : σ) :
    Option (Int × σ) :=
  match rxbuf with
  | none => some (gpsError, st)
  | some line =>
      (checksumStep line).map fun ret =>
        if ret < 0 then (gpsError, st) else parseChain links line st

end Chain

/-- `struct gps_zda`, whose members are `int`s and, from `day` on, `short`s. -/
structure Zda (α β : Type) where
  msec : α
  sec : α
  min : α
  hour : α
  day : β
  mon : β
  year : β
  deriving DecidableEq

abbrev GpsZda := Zda Int Int16

section

variable {α β : Type}

/-- The links of `gps_get_zda`, with what a string is converted to. -/
def zdaLinks (behind : Nat → UInt8) (toInt : List UInt8 → α) (toShort : List UInt8 → β) :
    List (List UInt8 → Zda α β → Zda α β) :=
  [fun _ zda => zda,
    fun p zda => { zda with
      hour := toInt (twoChars behind p 0)
      min := toInt (twoChars behind p 2)
      sec := toInt (twoChars behind p 4)
      msec := toInt (twoChars behind p 7) },
    fun p zda => { zda with day := toShort (token p) },
    fun p zda => { zda with mon := toShort (token p) },
    fun p zda => { zda with year := toShort (token p) }]

end

def atoiShort (s : List UInt8) : Int16 := Int16.ofInt (atoi s)

def gpsGetZda (behind : Nat → UInt8) (rxbuf : Option (List UInt8)) (zda : GpsZda) :
    Option (Int × GpsZda) :=
  parseLine (zdaLinks behind atoi atoiShort) rxbuf zda

/-- `struct gps_gga` with the type of its `double`s. -/
structure GpsGga (δ : Type) where
  latitude : δ
  nsIndicator : UInt8
  longitude : δ
  ewIndicator : UInt8
  deriving DecidableEq

section

variable {δ : Type}

/-- The links of `gps_get_gga`, on the variable `db2` and the structure. `scanLf` is what
`sscanf(p, "%lf", ..)` stores, if anything, and `div100` the division by 100. -/
def ggaLinks (scanLf : List UInt8 → Option δ) (div100 : δ → δ) :
    List (List UInt8 → δ × GpsGga δ → δ × GpsGga δ) :=
  let scan p db2 := (scanLf (token p)).getD db2
  [fun _ st => st,
    fun _ st => st,
    fun p st => (scan p st.1, { st.2 with latitude := div100 (scan p st.1) }),
    fun p st => (st.1, { st.2 with nsIndicator := (token p).headD 0 }),
    fun p st => (scan p st.1, { st.2 with longitude := div100 (scan p st.1) }),
    fun p st => (st.1, { st.2 with ewIndicator := (token p).headD 0 })]

def gpsGetGga (scanLf : List UInt8 → Option δ) (div100 : δ → δ) (db2 : δ)
    (rxbuf : Option (List UInt8)) (gga : GpsGga δ) : Option (Int × GpsGga δ) :=
  (parseLine (ggaLinks scanLf div100) rxbuf (db2, gga)).map fun r => (r.1, r.2.2)

end

/-- `struct gps_tm`. -/
structure GpsTm where
  tmSec : Int
  tmMin : Int
  tmHour : Int
  tmMday : Int
  tmMon : Int
  tmYear : Int
  tmWday : Int
  tmYday : Int
  deriving DecidableEq

def leap (y : Int) : Int :=
  if y.tmod 4 ≠ 0 then 0
  else if y.tmod 100 ≠ 0 then 1
  else if y.tmod 400 ≠ 0 then 0
  else 1

def monthday (m : Nat) (team : Int) : Int :=
  match m with
  | 1 | 3 | 5 | 7 | 8 | 10 | 12 => 31
  | 4 | 6 | 9 | 11 => 30
  | 2 => if team = 1 then 29 else if team = 0 then 28 else -1
  | _ => -1

/-- The loop adds the months before `mon`. -/
def getYday (year mon day : Int) : Int :=
  day + (List.range' 1 (mon - 1).toNat).foldl (fun d m => d + monthday m (leap year)) 0

/-- A result of type `int`; `none` stands for an overflow. -/
def intResult (x : Int) : Option Int := if -2147483648 ≤ x ∧ x ≤ 2147483647 then some x else none

/-- The expression for `tm_wday`, operation by operation. -/
def wday (mday mon year : Int) : Option Int := do
  let months ← intResult (2 * mon)
  let sum ← intResult (mday + months)
  let next ← intResult (mon + 1)
  let fifths ← intResult (3 * next)
  let sum ← intResult (sum + fifths.tdiv 5)
  let sum ← intResult (sum + year)
  let sum ← intResult (sum + year.tdiv 4)
  let sum ← intResult (sum - year.tdiv 100)
  let sum ← intResult (sum + year.tdiv 400)
  some (sum.tmod 7 + 1)

def tmLinks (behind : Nat → UInt8) : List (List UInt8 → GpsTm → GpsTm) :=
  [fun _ tm => tm,
    fun p tm => { tm with
      tmHour := atoi (twoChars behind p 0) + 8
      tmMin := atoi (twoChars behind p 2)
      tmSec := atoi (twoChars behind p 4) },
    fun p tm => { tm with tmMday := atoi (token p) },
    fun p tm => { tm with tmMon := atoi (token p) },
    fun p tm => { tm with tmYear := atoi (token p) }]

def gpsGetTm (behind : Nat → UInt8) (rxbuf : Option (List UInt8)) (tm : GpsTm) :
    Option (Int × GpsTm) :=
  (parseLine (tmLinks behind) rxbuf tm).bind fun r =>
    if r.1 = gpsEok then
      (wday r.2.tmMday r.2.tmMon r.2.tmYear).map fun tmWday =>
        (r.1, { r.2 with
          tmYday := getYday r.2.tmYear r.2.tmMon r.2.tmMday
          tmWday := tmWday })
    else some r

end BackupSoftware.Gps
