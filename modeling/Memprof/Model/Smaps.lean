import Memprof.Model.Rust

/-!
# `get_resident_segments`

The function reads `/proc/self/smaps` line by line through two regexes and a
two-state machine, accumulates each segment's resident size into a map keyed by
a synthesized name, and then totals, appends and sorts.

The regexes are written out as matchers. Each repetition in them is followed by
a character its class cannot match (a `-`, a space, a `:`, the literal ` kB`),
so a greedy reading is the only reading, and capture groups are what the
greedy run leaves. `.` stops at a newline, which `lines()` keeps at the end of
each line. `\d` is the regex crate's Unicode digit class: within ASCII exactly
`0` to `9`, beyond it a table that `memory.rs` does not hold, so that part is a
parameter.

The loop is modelled twice. `residentSegments` folds the step over a finite
list of lines; `getResidentSegments` runs the `for line in f.lines()` loop over
whatever the reader yields, read errors included, on fuel, since nothing bounds
the number of reads. The proofs connect the two.
-/

namespace Memprof.Smaps

open Memprof

/-- The regex crate's `\d`: the decimal digits beyond ASCII. -/
structure DigitClass where
  nonAscii : Char → Bool

/-- Whether `\d` matches `c`. -/
def DigitClass.test (d : DigitClass) (c : Char) : Bool :=
  if c.toNat < 128 then c.isDigit else d.nonAscii c

/-- `\d` with no digits beyond ASCII. -/
def DigitClass.asciiOnly : DigitClass := ⟨fun _ => false⟩

/-- `[:xdigit:]`. -/
def isXDigit (c : Char) : Bool :=
  c.isDigit || ('a' ≤ c && c ≤ 'f') || ('A' ≤ c && c ≤ 'F')

/-- `p+` at the front, greedily: the run and what follows, when the run is not
empty. -/
def plus (p : Char → Bool) (cs : List Char) : Option (List Char × List Char) :=
  match cs.takeWhile p with
  | [] => none
  | run => some (run, cs.dropWhile p)

/-- `p+`, keeping what follows it. -/
def skipPlus (p : Char → Bool) (cs : List Char) : Option (List Char) :=
  (plus p cs).map Prod.snd

/-- A literal text at the front: what follows it. -/
def lit (t cs : List Char) : Option (List Char) :=
  if t.isPrefixOf cs then some (cs.drop t.length) else none

/-- `(....)`: four characters, none of them a newline. -/
def four : List Char → Option (List Char × List Char)
  | a :: b :: c :: e :: rest =>
      if [a, b, c, e].all (· ≠ '\n') then some ([a, b, c, e], rest) else none
  | _ => none

/-- `seg_re`, `^[:xdigit:]+-[:xdigit:]+ (....) [:xdigit:]+ [:xdigit:]+:[:xdigit:]+ \d+ +(.*)`:
the permissions and the pathname. -/
def segRe (d : DigitClass) (line : String) : Option (String × String) :=
  (skipPlus isXDigit line.data >>= lit ['-'] >>= skipPlus isXDigit >>= lit [' '] >>= four).bind
    fun (perms, r) =>
      (lit [' '] r >>= skipPlus isXDigit >>= lit [' '] >>= skipPlus isXDigit >>= lit [':'] >>=
          skipPlus isXDigit >>= lit [' '] >>= skipPlus d.test >>= skipPlus (· = ' ')).map
        fun r => (String.mk perms, String.mk (r.takeWhile (· ≠ '\n')))

/-- `rss_re`, `^Rss: +(\d+) kB`: the digits. -/
def rssRe (d : DigitClass) (line : String) : Option String :=
  (lit "Rss:".data line.data >>= skipPlus (· = ' ') >>= plus d.test).bind
    fun (digits, r) => (lit " kB".data r).map fun _ => String.mk digits

/-- The name built into `curr_seg_name` from a header's captures. -/
def segName (perms pathname : String) : String :=
  "- " ++ (if pathname.isEmpty || "[stack:".isPrefixOf pathname then "anonymous" else pathname) ++
    " (" ++ perms ++ ")"

/-- `LookingFor`. -/
inductive LookingFor where
  | segment
  | rss
  deriving DecidableEq, Repr

/-- The loop's variables: `looking_for`, `curr_seg_name` and `seg_map`. -/
structure ScanState where
  lookingFor : LookingFor
  currSegName : String
  segMap : HashMap String Nat

/-- Before the first line. -/
def ScanState.init : ScanState := ⟨.segment, "", ∅⟩

/-- Segments below this many bytes go to `"- other"`. -/
def otherThreshold : Nat := 512 * 1024

/-- The bucket of small segments. -/
def otherName : String := "- other"

/-- `seg_map.entry(seg_name)`: a vacant entry gets `rss`, an occupied one has
`rss` added to it. -/
def addEntry (m : HashMap String Nat) (name : String) (rss : Nat) : Except Panic (HashMap String Nat) :=
  match m.lookup name with
  | none => .ok (AList.insert name rss m)
  | some old => (u64Add old rss).map fun v => AList.insert name v m

/-- One line through the state machine. -/
def scanLine (d : DigitClass) (st : ScanState) (line : String) : Except Panic ScanState :=
  match st.lookingFor with
  | .segment =>
      match segRe d line with
      | none => .ok st
      | some (perms, pathname) =>
          .ok { st with lookingFor := .rss, currSegName := segName perms pathname }
  | .rss =>
      match rssRe d line with
      | none => .ok st
      | some digits => do
          let kb ← unwrapOr (parseU64 digits)
          let rss ← u64Mul kb 1024
          if 0 < rss then
            let name := if rss < otherThreshold then otherName else st.currSegName
            let segMap ← addEntry st.segMap name rss
            pure { st with lookingFor := .segment, segMap := segMap }
          else pure { st with lookingFor := .segment }

/-- The label of the total. -/
def totalName : String := "resident-according-to-smaps"

/-- `sort_by(|&(_, rss1), &(_, rss2)| rss2.cmp(&rss1))`: a stable sort, largest
first. -/
def sortBySizeDesc (segs : List (String × Nat)) : List (String × Nat) :=
  segs.mergeSort fun a b => decide (b.2 ≤ a.2)

/-- `.sum()` over `u64`: checked additions from zero. -/
def u64Sum (xs : List Nat) : Except Panic Nat := xs.foldlM u64Add 0

/-- After the loop: collect the map in its iteration order, total it, push the
total, sort. -/
def finish (o : IterOrder (String × Nat)) (m : HashMap String Nat) :
    Except Panic (List (String × Nat)) := do
  let segs := o.arrange (HashMap.pairs m)
  let total ← u64Sum (segs.map Prod.snd)
  pure (sortBySizeDesc (segs ++ [(totalName, total)]))

/-- `get_resident_segments` over the lines of a file that was read to its end. -/
def residentSegments (d : DigitClass) (o : IterOrder (String × Nat)) (lines : List String) :
    Except Panic (List (String × Nat)) := do
  let st ← lines.foldlM (scanLine d) ScanState.init
  finish o st.segMap

/-- What `f.lines()` yields on its `i`-th call; `none` ends the loop. -/
abbrev LineSource (ε : Type) := Nat → Option (Except ε String)

/-- A file opened and read: its lines, then the end. -/
def LineSource.ofLines (ls : List String) : LineSource ε := fun i => ls[i]?.map .ok

/-- A reader that yields the results `rs`, lines and read errors, then the end. -/
def LineSource.ofReads (rs : List (Except ε String)) : LineSource ε := fun i => rs[i]?

/-- A `BufferedReader` around a failed `File::open`: every read fails with the
open's error, which is not end of file. -/
def LineSource.failedOpen (e : ε) : LineSource ε := fun _ => some (.error e)

/-- `File::open` wrapped in a `BufferedReader`, then `lines()`. -/
def openSmaps : Except ε (List String) → LineSource ε
  | .ok ls => .ofLines ls
  | .error e => .failedOpen e

/-- The `for line in f.lines()` loop, with `Err(_) => continue`; `none` when the
fuel runs out before the loop ends. -/
def scanSource (d : DigitClass) (src : LineSource ε) : Nat → Nat → ScanState → Option (Except Panic ScanState)
  | 0, _, _ => none
  | fuel + 1, i, st =>
      match src i with
      | none => some (.ok st)
      | some (.error _) => scanSource d src fuel (i + 1) st
      | some (.ok line) =>
          match scanLine d st line with
          | .error p => some (.error p)
          | .ok st' => scanSource d src fuel (i + 1) st'

/-- `get_resident_segments`, its loop given `fuel` rounds. -/
def getResidentSegments (d : DigitClass) (o : IterOrder (String × Nat)) (src : LineSource ε)
    (fuel : Nat) : Option (Except Panic (List (String × Nat))) :=
  (scanSource d src fuel 0 ScanState.init).map fun r => r.bind fun st => finish o st.segMap

end Memprof.Smaps
