import Memprof.Proofs.SmapsScan

/-!
# What `get_resident_segments` computes on a well-formed listing

The reference reads a listing the way a person would. Cut it at its header
lines; each header, with the lines up to the next header, is one segment,
named from the header's captures and measured by the first `Rss` line in
its block; lines before the first header belong to no segment. The breakdown
is then one entry per distinct name among the segments of at least 512 KiB,
with the sum of their sizes, one `"- other"` entry for the positive sizes below
that, and the total. `refSegments` and `breakdown` say this and nothing more.

The loop meets that reading block by block. Before the first header it stays
in `Segment` and passes every line over; a header moves it to `Rss`, which
waits through the block to the first `Rss` line, files the size, and hands
back to `Segment` for the rest of the block. `scan_blocks` says so for a
whole listing: the loop computes the fold of `recordSeg`, the code's filing
of one measured segment, over the reference's segments.

What the fold leaves in `seg_map` is arithmetic. While the sizes fit, each
filing adds its size to the sum of the map and to one key, the bucket of the
segment, so a key's value is the sum over the segments filed under it, and
the map's sum is the sum of all the sizes. The first fact is the breakdown
without its total, the second is the total.
-/

namespace Memprof.Smaps

open Memprof

variable {d : DigitClass}

/-! ## The reference breakdown -/

/-- The listing cut at its header lines: the lines before the first header,
then each header line with the lines up to the next header. -/
def blocks (d : DigitClass) : List String → List String × List (String × List String)
  | [] => ([], [])
  | l :: ls =>
      match blocks d ls with
      | (pend, bs) => if (segRe d l).isSome then ([], (l, pend) :: bs) else (l :: pend, bs)

/-- A block as a segment: the header's name and 1024 times the value on the
first `Rss` line of the block, when there is one and its value is decimal. -/
def blockSegment (d : DigitClass) (b : String × List String) : Option (String × Nat) :=
  match segRe d b.1, b.2.findSome? (rssRe d) with
  | some (perms, pathname), some digits =>
      (asciiDecimal digits).map fun n => (segName perms pathname, 1024 * n)
  | _, _ => none

/-- The segments of a listing in order; `none` when some header has no `Rss`
line before the next header, or the value on it is not ASCII decimal. -/
def refSegments (d : DigitClass) (ls : List String) : Option (List (String × Nat)) :=
  (blocks d ls).2.mapM (blockSegment d)

/-- One entry per distinct name among the segments of at least the threshold,
with the sum of their sizes. -/
def namedEntries (segs : List (String × Nat)) : List (String × Nat) :=
  let big := segs.filter fun s => otherThreshold ≤ s.2
  (big.map Prod.fst).dedup.map fun n => (n, ((big.filter (·.1 = n)).map Prod.snd).sum)

/-- The `"- other"` entry: the sum of the positive sizes below the threshold,
present when there is one. -/
def otherEntry (segs : List (String × Nat)) : List (String × Nat) :=
  let small := segs.filter fun s => 0 < s.2 ∧ s.2 < otherThreshold
  if small = [] then [] else [(otherName, (small.map Prod.snd).sum)]

/-- The breakdown of a list of segments, up to order. -/
def breakdown (segs : List (String × Nat)) : List (String × Nat) :=
  namedEntries segs ++ otherEntry segs ++ [(totalName, (segs.map Prod.snd).sum)]

/-! ## The loop, block by block -/

/-- The `Rss` branch's filing of one measured segment in `seg_map`. -/
def recordSeg (m : HashMap String Nat) (s : String × Nat) : Except Panic (HashMap String Nat) :=
  if 0 < s.2 then addEntry m (if s.2 < otherThreshold then otherName else s.1) s.2 else .ok m

theorem blocks_spec (d : DigitClass) (ls : List String) :
    ls = (blocks d ls).1 ++ (blocks d ls).2.flatMap (fun b => b.1 :: b.2) ∧
      (∀ l ∈ (blocks d ls).1, segRe d l = none) ∧
      ∀ b ∈ (blocks d ls).2, ∀ l ∈ b.2, segRe d l = none := by
  induction ls with
  | nil => exact ⟨rfl, List.forall_mem_nil _, List.forall_mem_nil _⟩
  | cons l ls ih =>
      rcases hb : blocks d ls with ⟨pend, bs⟩
      rw [hb] at ih
      obtain ⟨heq, hpend, hbody⟩ := ih
      by_cases hl : (segRe d l).isSome
      · simp only [blocks, hb, hl, if_true]
        refine ⟨by rw [heq]; simp, by simp, ?_⟩
        rintro b (_ | ⟨_, hb⟩)
        · exact hpend
        · exact hbody b hb
      · simp only [blocks, hb, hl, if_false]
        exact ⟨by rw [heq]; simp, List.forall_mem_cons.2 ⟨Option.not_isSome_iff_eq_none.mp hl, hpend⟩,
          hbody⟩

theorem scan_skip {st : ScanState} (hst : st.lookingFor = .segment) :
    ∀ {ls : List String}, (∀ l ∈ ls, segRe d l = none) → ls.foldlM (scanLine d) st = .ok st
  | [], _ => rfl
  | l :: ls, h => by
      have hl : scanLine d st l = .ok st := by simp [scanLine, hst, h l (List.mem_cons_self l ls)]
      rw [List.foldlM_cons, hl]
      exact scan_skip hst fun l' hl' => h l' (List.mem_cons_of_mem l hl')

theorem scanLine_rss {st : ScanState} {line digits : String} {n : Nat} (hst : st.lookingFor = .rss)
    (hr : rssRe d line = some digits) (hp : parseU64 digits = some n) (hn : 1024 * n < u64Limit) :
    scanLine d st line =
      (fun m => ⟨.segment, st.currSegName, m⟩) <$> recordSeg st.segMap (st.currSegName, 1024 * n) := by
  have hmul : u64Mul n 1024 = .ok (1024 * n) := u64Mul_eq_ok.mpr ⟨Nat.mul_comm _ _, by omega⟩
  simp only [scanLine, hst, hr, hp, unwrapOr, ok_bind, hmul, recordSeg]
  split
  · exact bind_pure_comp _ _
  · rfl

/-- In `Rss`, the loop waits for the block's first `Rss` line, files it, and
passes the rest of the block over. -/
theorem scan_wait : ∀ {body : List String} {st : ScanState} {digits : String} {n : Nat},
    st.lookingFor = .rss → body.findSome? (rssRe d) = some digits → parseU64 digits = some n →
    1024 * n < u64Limit → (∀ l ∈ body, segRe d l = none) →
    body.foldlM (scanLine d) st =
      (fun m => ⟨.segment, st.currSegName, m⟩) <$> recordSeg st.segMap (st.currSegName, 1024 * n)
  | [], _, _, _, _, hf, _, _, _ => by cases hf
  | l :: body, st, digits, n, hst, hf, hp, hn, hb => by
      have hrest : ∀ l' ∈ body, segRe d l' = none := fun l' hl' => hb l' (List.mem_cons_of_mem l hl')
      rw [List.foldlM_cons]
      cases hr : rssRe d l with
      | some digits' =>
          simp only [List.findSome?_cons, hr, Option.some.injEq] at hf
          subst hf
          rw [scanLine_rss hst hr hp hn]
          cases recordSeg st.segMap (st.currSegName, 1024 * n) with
          | error p => rfl
          | ok m => exact scan_skip rfl hrest
      | none =>
          simp only [List.findSome?_cons, hr] at hf
          have hl : scanLine d st l = .ok st := by simp [scanLine, hst, hr]
          rw [hl]
          exact scan_wait hst hf hp hn hrest

/-- A block gives a segment only through a header, an `Rss` line and a decimal value. -/
theorem blockSegment_eq_some {b : String × List String} {s : String × Nat}
    (h : blockSegment d b = some s) :
    ∃ perms pathname digits n, segRe d b.1 = some (perms, pathname) ∧
      b.2.findSome? (rssRe d) = some digits ∧ asciiDecimal digits = some n ∧
      s = (segName perms pathname, 1024 * n) := by
  unfold blockSegment at h
  split at h
  · obtain ⟨n, hn, rfl⟩ := Option.map_eq_some'.mp h
    exact ⟨_, _, _, n, ‹_›, ‹_›, hn, rfl⟩
  · cases h

theorem scan_block {st : ScanState} {b : String × List String} {s : String × Nat}
    (hst : st.lookingFor = .segment) (hb : blockSegment d b = some s) (hs : s.2 < u64Limit)
    (hbody : ∀ l ∈ b.2, segRe d l = none) :
    (b.1 :: b.2).foldlM (scanLine d) st = (fun m => ⟨.segment, s.1, m⟩) <$> recordSeg st.segMap s := by
  obtain ⟨perms, pathname, digits, n, hseg, hfind, hn, rfl⟩ := blockSegment_eq_some hb
  have hhead : scanLine d st b.1 = .ok ⟨.rss, segName perms pathname, st.segMap⟩ := by
    simp [scanLine, hst, hseg]
  rw [List.foldlM_cons, hhead]
  exact scan_wait rfl hfind (parseU64_of_asciiDecimal hn (by simp at hs; omega)) hs hbody

theorem mapM_cons_eq_some {α β : Type} {f : α → Option β} {a : α} {l : List α} {r : List β}
    (h : (a :: l).mapM f = some r) : ∃ b r', f a = some b ∧ l.mapM f = some r' ∧ r = b :: r' := by
  simp only [List.mapM_cons, Option.bind_eq_bind, Option.bind_eq_some, Option.pure_def,
    Option.some.injEq] at h
  obtain ⟨b, hb, r', hr', rfl⟩ := h
  exact ⟨b, r', hb, hr', rfl⟩

/-- Over the blocks of a listing, the loop is the fold of `recordSeg` over
their segments. -/
theorem scan_blocks : ∀ {bs : List (String × List String)} {segs : List (String × Nat)} {st : ScanState},
    st.lookingFor = .segment → bs.mapM (blockSegment d) = some segs → (∀ s ∈ segs, s.2 < u64Limit) →
    (∀ b ∈ bs, ∀ l ∈ b.2, segRe d l = none) →
    ∃ name, (bs.flatMap fun b => b.1 :: b.2).foldlM (scanLine d) st =
      (fun m => ⟨.segment, name, m⟩) <$> segs.foldlM recordSeg st.segMap
  | [], _, st, hst, hm, _, _ => by
      cases hm
      obtain ⟨_, name, m⟩ := st
      cases hst
      exact ⟨name, rfl⟩
  | b :: bs, _, st, hst, hm, hfit, hbody => by
      obtain ⟨s, segs, hs, hsegs, rfl⟩ := mapM_cons_eq_some hm
      rw [List.flatMap_cons, List.foldlM_append,
        scan_block hst hs (hfit s (List.mem_cons_self s segs)) (hbody b (List.mem_cons_self b bs)),
        List.foldlM_cons]
      cases recordSeg st.segMap s with
      | error p => exact ⟨"", rfl⟩
      | ok m =>
          exact scan_blocks rfl hsegs (fun s' hs' => hfit s' (List.mem_cons_of_mem s hs'))
            fun b' hb' => hbody b' (List.mem_cons_of_mem b hb')

theorem blockSegment_ne_otherName {b : String × List String} {s : String × Nat}
    (h : blockSegment d b = some s) : s.1 ≠ otherName := by
  obtain ⟨perms, pathname, -, -, -, -, -, rfl⟩ := blockSegment_eq_some h
  intro heq
  have := congrArg (fun s => s.data.reverse.head?) heq
  simp [segName, otherName] at this

theorem mapM_blockSegment_ne_otherName : ∀ {bs : List (String × List String)} {segs : List (String × Nat)},
    bs.mapM (blockSegment d) = some segs → ∀ s ∈ segs, s.1 ≠ otherName
  | [], _, h => by cases h; simp
  | _ :: _, _, h => by
      obtain ⟨s, segs, hs, hsegs, rfl⟩ := mapM_cons_eq_some h
      rintro s' (_ | ⟨_, hs'⟩)
      · exact blockSegment_ne_otherName hs
      · exact mapM_blockSegment_ne_otherName hsegs s' hs'

/-! ## What the filings leave in `seg_map` -/

/-- The sum of the sizes in the map. -/
def mapSum (m : HashMap String Nat) : Nat := ((HashMap.pairs m).map Prod.snd).sum

theorem sum_eq_dlookup_add_kerase (k : String) :
    ∀ l : List (Sigma fun _ : String => Nat),
      (l.map (·.2)).sum = (l.dlookup k).getD 0 + ((l.kerase k).map (·.2)).sum
  | [] => rfl
  | s :: l => by
      by_cases h : s.1 = k
      · obtain ⟨a, b⟩ := s
        dsimp only at h
        subst h
        simp
      · rw [List.dlookup_cons_ne l s (Ne.symm h), List.kerase_cons_ne (Ne.symm h), List.map_cons,
          List.map_cons, List.sum_cons, List.sum_cons, sum_eq_dlookup_add_kerase k l]
        omega

@[simp] theorem mapSum_empty : mapSum ∅ = 0 := rfl

theorem mapSum_entries (m : HashMap String Nat) : mapSum m = (m.entries.map (·.2)).sum := by
  simp [mapSum, HashMap.pairs, Function.comp_def]

theorem mapSum_eq (m : HashMap String Nat) (k : String) :
    mapSum m = (m.lookup k).getD 0 + ((m.entries.kerase k).map (·.2)).sum := by
  rw [mapSum_entries]
  exact sum_eq_dlookup_add_kerase k _

theorem mapSum_insert (m : HashMap String Nat) (k : String) (v : Nat) :
    mapSum (AList.insert k v m) + (m.lookup k).getD 0 = mapSum m + v := by
  rw [mapSum_eq m k, mapSum_entries, AList.insert_entries, List.map_cons, List.sum_cons]
  dsimp only
  omega

/-- A key's value once the sizes `xs` are added to it: untouched when there
are none. -/
def merged (o : Option Nat) (xs : List Nat) : Option Nat :=
  if xs = [] then o else some (o.getD 0 + xs.sum)

theorem merged_append (o : Option Nat) (xs ys : List Nat) :
    merged (merged o xs) ys = merged o (xs ++ ys) := by
  unfold merged
  by_cases hx : xs = [] <;> by_cases hy : ys = [] <;> simp [hx, hy, Nat.add_assoc]

/-- The key a segment is filed under, if any. -/
def bucket (s : String × Nat) : Option String :=
  if 0 < s.2 then some (if s.2 < otherThreshold then otherName else s.1) else none

theorem addEntry_fits {m : HashMap String Nat} {k : String} {v : Nat} (h : mapSum m + v < u64Limit) :
    addEntry m k v = .ok (AList.insert k ((m.lookup k).getD 0 + v) m) := by
  unfold addEntry
  split
  · simp_all
  · rename_i old hold
    have : old ≤ mapSum m := by have := mapSum_eq m k; simp [hold] at this; omega
    simp [hold, u64Add, checkU64_ok (show old + v < u64Limit by omega), Except.map]

theorem recordSeg_spec (m : HashMap String Nat) (s : String × Nat) (h : mapSum m + s.2 < u64Limit) :
    ∃ m', recordSeg m s = .ok m' ∧ mapSum m' = mapSum m + s.2 ∧
      ∀ k, m'.lookup k = merged (m.lookup k) (if bucket s = some k then [s.2] else []) := by
  unfold recordSeg bucket
  split
  · generalize (if s.2 < otherThreshold then otherName else s.1) = name
    have hins := mapSum_insert m name ((m.lookup name).getD 0 + s.2)
    refine ⟨_, addEntry_fits h, by omega, fun k => ?_⟩
    by_cases hk : name = k
    · subst hk
      simp [merged, AList.lookup_insert]
    · simp [merged, AList.lookup_insert_ne (Ne.symm hk), hk]
  · exact ⟨m, rfl, by omega, fun k => by simp [merged]⟩

theorem recordSegs_spec : ∀ (segs : List (String × Nat)) (m : HashMap String Nat),
    mapSum m + (segs.map Prod.snd).sum < u64Limit →
    ∃ m', segs.foldlM recordSeg m = .ok m' ∧ mapSum m' = mapSum m + (segs.map Prod.snd).sum ∧
      ∀ k, m'.lookup k = merged (m.lookup k) ((segs.filter (bucket · = some k)).map Prod.snd)
  | [], m, _ => ⟨m, rfl, rfl, fun k => by simp [merged]⟩
  | s :: segs, m, h => by
      simp only [List.map_cons, List.sum_cons] at h
      obtain ⟨m₁, h₁, hsum₁, hlk₁⟩ := recordSeg_spec m s (by omega)
      obtain ⟨m', h', hsum', hlk'⟩ := recordSegs_spec segs m₁ (by omega)
      refine ⟨m', by rw [List.foldlM_cons, h₁]; exact h', by simp; omega, fun k => ?_⟩
      rw [hlk', hlk₁, merged_append]
      by_cases hb : bucket s = some k <;> simp [List.filter_cons, hb]

/-! ## The breakdown -/

section Breakdown

variable {segs : List (String × Nat)}

theorem mem_namedEntries {k : String} {v : Nat} :
    (k, v) ∈ namedEntries segs ↔
      ((segs.filter fun s => otherThreshold ≤ s.2).filter (·.1 = k)) ≠ [] ∧
        (((segs.filter fun s => otherThreshold ≤ s.2).filter (·.1 = k)).map Prod.snd).sum = v := by
  simp only [namedEntries, List.mem_map, List.mem_dedup, Prod.mk.injEq]
  constructor
  · rintro ⟨_, ⟨s, hs, rfl⟩, rfl, rfl⟩
    exact ⟨List.ne_nil_of_mem (List.mem_filter.mpr ⟨hs, by simp⟩), rfl⟩
  · rintro ⟨hne, rfl⟩
    obtain ⟨s, hs⟩ := List.exists_mem_of_ne_nil _ hne
    obtain ⟨hs, hsk⟩ := List.mem_filter.mp hs
    exact ⟨k, ⟨s, hs, of_decide_eq_true hsk⟩, rfl, rfl⟩

theorem mem_otherEntry {k : String} {v : Nat} :
    (k, v) ∈ otherEntry segs ↔ k = otherName ∧
      (segs.filter fun s => 0 < s.2 ∧ s.2 < otherThreshold) ≠ [] ∧
      ((segs.filter fun s => 0 < s.2 ∧ s.2 < otherThreshold).map Prod.snd).sum = v := by
  dsimp only [otherEntry]
  split
  · rename_i h
    simp only [List.not_mem_nil, false_iff]
    exact fun ⟨_, hne, _⟩ => hne h
  · rename_i h
    simp only [List.mem_singleton, Prod.mk.injEq]
    exact ⟨fun ⟨hk, hv⟩ => ⟨hk, h, hv.symm⟩, fun ⟨hk, _, hv⟩ => ⟨hk, hv.symm⟩⟩

theorem filter_bucket_other (hn : ∀ s ∈ segs, s.1 ≠ otherName) :
    segs.filter (bucket · = some otherName) = segs.filter fun s => 0 < s.2 ∧ s.2 < otherThreshold := by
  refine List.filter_congr fun s hs => ?_
  unfold bucket
  by_cases hpos : 0 < s.2 <;> by_cases hlt : s.2 < otherThreshold <;> simp [hpos, hlt, hn s hs]

theorem filter_bucket_named {k : String} (hk : k ≠ otherName) :
    segs.filter (bucket · = some k) = (segs.filter fun s => otherThreshold ≤ s.2).filter (·.1 = k) := by
  rw [List.filter_filter]
  refine List.filter_congr fun s _ => ?_
  unfold bucket
  by_cases hpos : 0 < s.2 <;> by_cases hlt : s.2 < otherThreshold
  · simp [hpos, hlt, Ne.symm hk]
  · simp [hpos, hlt, Nat.le_of_not_lt hlt]
  · simp [hpos, hlt]
  · exact absurd (lt_of_lt_of_le (by decide) (Nat.le_of_not_lt hlt)) hpos

theorem merged_none_eq_some {xs : List Nat} {v : Nat} :
    merged none xs = some v ↔ xs ≠ [] ∧ xs.sum = v := by
  unfold merged
  split <;> simp_all

theorem mem_named_other (hn : ∀ s ∈ segs, s.1 ≠ otherName) {k : String} {v : Nat} :
    (k, v) ∈ namedEntries segs ++ otherEntry segs ↔
      merged none ((segs.filter (bucket · = some k)).map Prod.snd) = some v := by
  rw [List.mem_append, mem_namedEntries, mem_otherEntry, merged_none_eq_some]
  simp only [ne_eq, List.map_eq_nil_iff]
  by_cases hk : k = otherName
  · subst hk
    have : (segs.filter fun s => otherThreshold ≤ s.2).filter (·.1 = otherName) = [] :=
      List.filter_eq_nil_iff.mpr fun s hs => by simpa using hn s (List.mem_of_mem_filter hs)
    rw [this, filter_bucket_other hn]
    simp only [not_true_eq_false, false_and, true_and, false_or]
  · rw [filter_bucket_named hk]
    simp only [hk, false_and, or_false]

theorem nodup_named_other (hn : ∀ s ∈ segs, s.1 ≠ otherName) :
    (namedEntries segs ++ otherEntry segs).Nodup := by
  refine List.Nodup.of_map Prod.fst ?_
  have hkeys : (namedEntries segs).map Prod.fst =
      ((segs.filter fun s => otherThreshold ≤ s.2).map Prod.fst).dedup := by
    simp [namedEntries, Function.comp_def]
  rw [List.map_append, hkeys, List.nodup_append]
  dsimp only [otherEntry]
  split
  · simp [List.nodup_dedup]
  · refine ⟨List.nodup_dedup _, by simp, List.disjoint_singleton.mpr fun h => ?_⟩
    obtain ⟨s, hs, hs'⟩ := List.mem_map.mp (List.mem_dedup.mp h)
    exact hn s (List.mem_of_mem_filter hs) hs'
end Breakdown

theorem finish_fits {o : IterOrder (String × Nat)} {m : HashMap String Nat} (h : mapSum m < u64Limit) :
    finish o m = .ok (sortBySizeDesc (o.arrange (HashMap.pairs m) ++ [(totalName, mapSum m)])) := by
  have hsum : ((o.arrange (HashMap.pairs m)).map Prod.snd).sum = mapSum m := ((o.perm _).map _).sum_eq
  have hok : u64Sum ((o.arrange (HashMap.pairs m)).map Prod.snd) = .ok (mapSum m) :=
    u64Sum_eq_ok.mpr ⟨hsum.symm, hsum ▸ h⟩
  simp only [finish, hok]
  rfl

theorem residentSegments_breakdown (d : DigitClass) (o : IterOrder (String × Nat)) {ls : List String}
    {segs : List (String × Nat)} (h : refSegments d ls = some segs)
    (hfit : (segs.map Prod.snd).sum < u64Limit) :
    ∃ out, residentSegments d o ls = .ok out ∧ out.Perm (breakdown segs) := by
  obtain ⟨hls, hpend, hbody⟩ := blocks_spec d ls
  have hsegfit : ∀ s ∈ segs, s.2 < u64Limit := fun s hs =>
    lt_of_le_of_lt (List.le_sum_of_mem (List.mem_map_of_mem Prod.snd hs)) hfit
  obtain ⟨name, hscan⟩ := scan_blocks (rfl : ScanState.init.lookingFor = _) h hsegfit hbody
  obtain ⟨m, hm, hsum, hlk⟩ := recordSegs_spec segs ∅ (by simpa using hfit)
  have hfold : ls.foldlM (scanLine d) ScanState.init = .ok ⟨.segment, name, m⟩ := by
    rw [hls, List.foldlM_append, scan_skip rfl hpend, ok_bind, hscan]
    exact congrArg _ hm
  have hm0 : mapSum m = (segs.map Prod.snd).sum := by simpa using hsum
  refine ⟨_, (residentSegments_of_scan hfold).trans (finish_fits (hm0 ▸ hfit)), ?_⟩
  refine (sortBySizeDesc_perm _).trans ?_
  rw [breakdown, hm0]
  refine List.Perm.append_right _ ((o.perm _).trans ?_)
  have hn := mapM_blockSegment_ne_otherName h
  refine (List.perm_ext_iff_of_nodup ((HashMap.pairs_nodup_keys m).of_map _)
    (nodup_named_other hn)).mpr fun ⟨k, v⟩ => ?_
  rw [HashMap.mem_pairs, mem_named_other hn, hlk]
  rfl

theorem residentSegments_breakdown_two_segments :
    refSegments DigitClass.asciiOnly
        ["00400000-0040b000 r-xp 00000000 08:01 1 /bin/a", "Size: 44 kB", "Rss: 1024 kB",
          "7fff0000-7fff1000 rw-p 00000000 00:00 0 ", "Rss: 4 kB"] =
      some [("- /bin/a (r-xp)", 1048576), ("- anonymous (rw-p)", 4096)] ∧
    (([("- /bin/a (r-xp)", 1048576), ("- anonymous (rw-p)", 4096)] : List (String × Nat)).map
      Prod.snd).sum < u64Limit ∧
    ∃ out, residentSegments DigitClass.asciiOnly (IterOrder.asListed _)
        ["00400000-0040b000 r-xp 00000000 08:01 1 /bin/a", "Size: 44 kB", "Rss: 1024 kB",
          "7fff0000-7fff1000 rw-p 00000000 00:00 0 ", "Rss: 4 kB"] = .ok out ∧
      out.Perm (breakdown [("- /bin/a (r-xp)", 1048576), ("- anonymous (rw-p)", 4096)]) :=
  ⟨rfl, by decide, residentSegments_breakdown _ _ rfl (by decide)⟩

end Memprof.Smaps
