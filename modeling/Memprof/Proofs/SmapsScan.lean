import Memprof.Model.Smaps

/-!
# The smaps loop and the vector it returns

Three facts about the loop come first. Over the lines of a file that opened,
the `for` loop ends once it has read them all, and it computes the left fold
`residentSegments` is written with. Over a `BufferedReader` around a failed
`File::open` it never ends: each read fails with the open's error, which is not
end of file, so `lines()` yields `Some(Err(_))` forever and the loop's
`Err(_) => continue` takes it every time. Over text nobody checked, the `Rss`
branch panics, at the `unwrap` of the parse when the digits do not fit a `u64`
and at the scaling when they do and the product does not.

Then the shape of what a run that returns hands back. The loop keeps `seg_map`
inside one invariant, `MapInv`: no key is the total's label, every size is
positive, and every size under a key other than `"- other"` is at least the
threshold. Every step keeps it, as `scanLine_eq_ok` says what a step can do to
the map, and `finish` turns it into the vector's shape: distinct names, the
total once and equal to the rest, the others positive and large unless merged.

The sort is stable and takes the largest first, so the vector is sorted; but
the total is pushed last, and a tie with an entry sends it behind that entry,
which the comment at the sort does not expect.
-/

namespace Memprof.Smaps

open Memprof

variable {d : DigitClass} {o : IterOrder (String × Nat)}

/-! ## The loop over a line source -/

theorem scanSource_ofLines {ε : Type} (d : DigitClass) (ls : List String) :
    ∀ fuel i st, ls.length - i < fuel →
      scanSource d (LineSource.ofLines ls : LineSource ε) fuel i st =
        some ((ls.drop i).foldlM (scanLine d) st)
  | 0, _, _, h => absurd h (Nat.not_lt_zero _)
  | fuel + 1, i, st, h => by
      by_cases hi : i < ls.length
      · rw [List.drop_eq_getElem_cons hi, List.foldlM_cons]
        simp only [scanSource, LineSource.ofLines, List.getElem?_eq_getElem hi, Option.map_some']
        cases scanLine d st ls[i] with
        | error p => rfl
        | ok st' => exact scanSource_ofLines d ls fuel (i + 1) st' (by omega)
      · have hi : ls.length ≤ i := by omega
        simp [scanSource, LineSource.ofLines, List.getElem?_eq_none hi, List.drop_eq_nil_of_le hi]
        rfl

/-- Over a file that opened, the loop ends after one round per line and computes
`residentSegments`. -/
theorem getResidentSegments_ofLines {ε : Type} (ls : List String) {fuel : Nat}
    (h : ls.length < fuel) :
    getResidentSegments d o (openSmaps (.ok ls : Except ε (List String))) fuel =
      some (residentSegments d o ls) := by
  simp only [getResidentSegments, openSmaps, scanSource_ofLines d ls fuel 0 _ (by omega),
    List.drop_zero, Option.map_some']
  rfl

theorem scanSource_failedOpen {ε : Type} (d : DigitClass) (e : ε) :
    ∀ fuel i st, scanSource d (LineSource.failedOpen e) fuel i st = none
  | 0, _, _ => rfl
  | fuel + 1, i, st => scanSource_failedOpen d e fuel (i + 1) st

theorem getResidentSegments_spins_when_open_fails {ε : Type} (d : DigitClass)
    (o : IterOrder (String × Nat)) (e : ε) (fuel : Nat) :
    getResidentSegments d o (openSmaps (.error e : Except ε (List String))) fuel = none := by
  simp [getResidentSegments, openSmaps, scanSource_failedOpen]

/-! ## Panics in the `Rss` branch -/

/-- What every entry of `seg_map` satisfies. -/
def SegInv (name : String) (size : Nat) : Prop :=
  name ≠ totalName ∧ 0 < size ∧ (name ≠ otherName → otherThreshold ≤ size)

/-- Every entry of the map satisfies `SegInv`. -/
def MapInv (m : HashMap String Nat) : Prop :=
  ∀ k v, m.lookup k = some v → SegInv k v

/-- The loop's invariant: the name a `Rss` line would be filed under is never
the total's, and the map keeps `MapInv`. -/
def ScanInv (st : ScanState) : Prop :=
  st.currSegName ≠ totalName ∧ MapInv st.segMap

theorem segName_ne_totalName (perms pathname : String) : segName perms pathname ≠ totalName := by
  intro h
  have := congrArg (fun s => s.data.head?) h
  simp [segName, totalName] at this

theorem SegInv.mono {k : String} {v v' : Nat} (h : SegInv k v) (hv : v ≤ v') : SegInv k v' :=
  ⟨h.1, by have := h.2.1; omega, fun hk => le_trans (h.2.2 hk) hv⟩

theorem MapInv.insert {m : HashMap String Nat} {k : String} {v : Nat} (hm : MapInv m)
    (hv : SegInv k v) : MapInv (AList.insert k v m) := by
  intro k' v' h
  by_cases hk : k' = k
  · subst hk
    rw [AList.lookup_insert, Option.some.injEq] at h
    exact h ▸ hv
  · rw [AList.lookup_insert_ne hk] at h
    exact hm k' v' h

theorem addEntry_inv {m m' : HashMap String Nat} {name : String} {rss : Nat} (hm : MapInv m)
    (hs : SegInv name rss) (h : addEntry m name rss = .ok m') : MapInv m' := by
  unfold addEntry at h
  split at h
  · cases h
    exact hm.insert hs
  · rename_i old _
    cases hv : u64Add old rss with
    | error p => simp [hv, Except.map] at h
    | ok v =>
        simp only [hv, Except.map, Except.ok.injEq] at h
        subst h
        exact hm.insert (hs.mono (by have := u64Add_eq_ok.mp hv; omega))

/-- What one line can do to the state: leave the map alone, possibly naming a
new segment, or add a positive size under the `"- other"` bucket or the
current name. -/
theorem scanLine_eq_ok {st st' : ScanState} {line : String} (h : scanLine d st line = .ok st') :
    (st'.segMap = st.segMap ∧
      (st'.currSegName = st.currSegName ∨ ∃ perms pathname, st'.currSegName = segName perms pathname)) ∨
    (st'.currSegName = st.currSegName ∧ ∃ rss, 0 < rss ∧
      addEntry st.segMap (if rss < otherThreshold then otherName else st.currSegName) rss =
        .ok st'.segMap) := by
  unfold scanLine at h
  split at h
  · split at h
    · cases h
      exact .inl ⟨rfl, .inl rfl⟩
    · cases h
      exact .inl ⟨rfl, .inr ⟨_, _, rfl⟩⟩
  · split at h
    · cases h
      exact .inl ⟨rfl, .inl rfl⟩
    · obtain ⟨_, -, h⟩ := bind_eq_ok.mp h
      obtain ⟨rss, -, h⟩ := bind_eq_ok.mp h
      split at h
      · obtain ⟨m, hm, h⟩ := bind_eq_ok.mp h
        cases pure_eq_ok.mp h
        exact .inr ⟨rfl, rss, ‹_›, hm⟩
      · cases pure_eq_ok.mp h
        exact .inl ⟨rfl, .inl rfl⟩

theorem scanLine_inv {st st' : ScanState} {line : String} (hi : ScanInv st)
    (h : scanLine d st line = .ok st') : ScanInv st' := by
  rcases scanLine_eq_ok h with ⟨hm, hn⟩ | ⟨hn, rss, hpos, hadd⟩
  · refine ⟨?_, hm ▸ hi.2⟩
    rcases hn with hn | ⟨perms, pathname, hn⟩
    · exact hn ▸ hi.1
    · exact hn ▸ segName_ne_totalName perms pathname
  · refine ⟨hn ▸ hi.1, addEntry_inv hi.2 ⟨?_, hpos, fun hk => ?_⟩ hadd⟩
    · split
      · decide
      · exact hi.1
    · split at hk
      · exact absurd rfl hk
      · unfold otherThreshold at *; omega

theorem ScanInv.init : ScanInv ScanState.init :=
  ⟨by decide, fun _ _ h => by simp [ScanState.init] at h⟩

theorem scan_inv {ls : List String} {st : ScanState}
    (h : ls.foldlM (scanLine d) ScanState.init = .ok st) : ScanInv st :=
  foldlM_ok_inv ScanInv (fun _ _ _ => scanLine_inv) ScanInv.init h

/-! ## After the loop -/

theorem u64Sum_eq_ok_aux {xs : List Nat} :
    ∀ {a t : Nat}, a < u64Limit →
      (xs.foldlM u64Add a = .ok t ↔ t = a + xs.sum ∧ a + xs.sum < u64Limit) := by
  induction xs with
  | nil => intro a t ha; simp only [List.foldlM_nil, pure_eq_ok, List.sum_nil]; omega
  | cons x xs ih =>
      intro a t _
      simp only [List.foldlM_cons, bind_eq_ok, u64Add_eq_ok, List.sum_cons]
      constructor
      · rintro ⟨_, ⟨rfl, hax⟩, h⟩
        have := (ih hax).mp h
        omega
      · rintro ⟨rfl, h⟩
        exact ⟨_, ⟨rfl, by omega⟩, (ih (by omega)).mpr ⟨by omega, by omega⟩⟩

/-- The checked `.sum()` returns the sum exactly when it fits. -/
@[simp] theorem u64Sum_eq_ok {xs : List Nat} {t : Nat} :
    u64Sum xs = .ok t ↔ t = xs.sum ∧ xs.sum < u64Limit := by
  simp [u64Sum, u64Sum_eq_ok_aux (show 0 < u64Limit by decide)]

theorem finish_eq_ok {m : HashMap String Nat} {out : List (String × Nat)}
    (h : finish o m = .ok out) :
    out = sortBySizeDesc (o.arrange (HashMap.pairs m) ++
      [(totalName, ((o.arrange (HashMap.pairs m)).map Prod.snd).sum)]) := by
  obtain ⟨t, ht, h⟩ := bind_eq_ok.mp h
  rw [(u64Sum_eq_ok.mp ht).1] at h
  exact (pure_eq_ok.mp h).symm

theorem sortBySizeDesc_perm (segs : List (String × Nat)) : (sortBySizeDesc segs).Perm segs :=
  List.mergeSort_perm _ _

theorem sortBySizeDesc_sorted (segs : List (String × Nat)) :
    (sortBySizeDesc segs).Pairwise fun a b => b.2 ≤ a.2 := by
  have := @List.sorted_mergeSort _ (fun a b : String × Nat => decide (b.2 ≤ a.2))
    (fun _ _ _ h₁ h₂ => by simp only [decide_eq_true_eq] at *; omega)
    (fun a b => by simp only [Bool.or_eq_true, decide_eq_true_eq]; omega) segs
  simpa using this

theorem sortBySizeDesc_of_sorted {segs : List (String × Nat)}
    (h : segs.Pairwise fun a b => b.2 ≤ a.2) : sortBySizeDesc segs = segs :=
  List.mergeSort_of_sorted (by simpa using h)

theorem finish_singleton {k : String} {v : Nat} (hv : v < u64Limit) :
    finish o (AList.insert k v ∅) = .ok (sortBySizeDesc [(k, v), (totalName, v)]) := by
  have harr : o.arrange (HashMap.pairs (AList.insert k v ∅)) = [(k, v)] :=
    List.perm_singleton.mp (o.perm _)
  have hsum : u64Sum [v] = .ok v := u64Sum_eq_ok.mpr ⟨by simp, by simpa using hv⟩
  simp only [finish, harr, List.map_cons, List.map_nil, hsum]
  rfl

theorem finish_empty : finish o ∅ = .ok (sortBySizeDesc [(totalName, 0)]) := by
  have harr : o.arrange (HashMap.pairs (∅ : HashMap String Nat)) = [] := (o.perm _).eq_nil
  simp only [finish, harr]
  rfl

theorem residentSegments_of_scan {ls : List String} {st : ScanState}
    (h : ls.foldlM (scanLine d) ScanState.init = .ok st) :
    residentSegments d o ls = finish o st.segMap := by
  simp only [residentSegments, h]
  rfl

/-- A run that returns hands back a vector sorted largest first. -/
theorem residentSegments_sorted {ls : List String} {out : List (String × Nat)}
    (h : residentSegments d o ls = .ok out) : out.Pairwise fun a b => b.2 ≤ a.2 := by
  obtain ⟨st, -, h⟩ := bind_eq_ok.mp h
  exact finish_eq_ok h ▸ sortBySizeDesc_sorted _

/-- Every vector a run returns is sorted largest first, yet the total need not
come first: one segment of the same size stays ahead of it. -/
theorem residentSegments_ties_total_behind_segment (d : DigitClass) (o : IterOrder (String × Nat)) :
    (∀ (ls : List String) (out : List (String × Nat)), residentSegments d o ls = .ok out →
      out.Pairwise fun a b => b.2 ≤ a.2) ∧
    residentSegments d o ["00400000-0040b000 r-xp 00000000 08:01 1 /bin/a", "Rss: 1024 kB"] =
      .ok [("- /bin/a (r-xp)", 1048576), (totalName, 1048576)] := by
  refine ⟨fun _ _ => residentSegments_sorted, ?_⟩
  have hscan : ["00400000-0040b000 r-xp 00000000 08:01 1 /bin/a", "Rss: 1024 kB"].foldlM
      (scanLine d) ScanState.init = .ok ⟨.segment, "- /bin/a (r-xp)", AList.insert "- /bin/a (r-xp)" 1048576 ∅⟩ :=
    rfl
  rw [residentSegments_of_scan hscan, finish_singleton (by decide), sortBySizeDesc_of_sorted (by decide)]

theorem residentSegments_shape (d : DigitClass) (o : IterOrder (String × Nat)) {ls : List String}
    {out : List (String × Nat)} (h : residentSegments d o ls = .ok out) :
    (out.map Prod.fst).Nodup ∧
      (totalName, ((out.filter (·.1 ≠ totalName)).map Prod.snd).sum) ∈ out ∧
      ∀ e ∈ out, e.1 ≠ totalName → 0 < e.2 ∧ (e.1 ≠ otherName → otherThreshold ≤ e.2) := by
  obtain ⟨st, hst, h⟩ := bind_eq_ok.mp h
  have hinv := (scan_inv hst).2
  set segs := o.arrange (HashMap.pairs st.segMap)
  have hperm : (out.Perm (segs ++ [(totalName, (segs.map Prod.snd).sum)])) :=
    finish_eq_ok h ▸ sortBySizeDesc_perm _
  have hseg : ∀ e ∈ segs, SegInv e.1 e.2 := fun e he =>
    hinv e.1 e.2 (HashMap.mem_pairs.mp ((o.perm _).subset he))
  have hkeys : (segs.map Prod.fst).Nodup :=
    ((o.perm _).map Prod.fst).nodup_iff.mpr (HashMap.pairs_nodup_keys _)
  have hothers : out.filter (·.1 ≠ totalName) |>.Perm segs := by
    refine (hperm.filter _).trans ?_
    rw [List.filter_append, List.filter_eq_self.mpr fun e he => by simpa using (hseg e he).1]
    simp
  refine ⟨(hperm.map Prod.fst).nodup_iff.mpr ?_, ?_, fun e he hne => ?_⟩
  · rw [List.map_append, List.nodup_append]
    refine ⟨hkeys, List.nodup_singleton _, List.disjoint_singleton.mpr fun hm => ?_⟩
    obtain ⟨e, he, hx⟩ := List.mem_map.mp hm
    exact (hseg e he).1 hx
  · rw [(hothers.map Prod.snd).sum_eq]
    exact hperm.mem_iff.mpr (by simp)
  · have := hperm.mem_iff.mp he
    simp only [List.mem_append, List.mem_singleton] at this
    rcases this with he | rfl
    · exact (hseg e he).2
    · exact absurd rfl hne

theorem residentSegments_shape_small_segment :
    residentSegments DigitClass.asciiOnly (IterOrder.asListed _)
        ["7fff0000-7fff1000 rw-p 00000000 00:00 0 ", "Rss: 4 kB"] =
      .ok [(otherName, 4096), (totalName, 4096)] ∧
    (([(otherName, 4096), (totalName, 4096)] : List (String × Nat)).map Prod.fst).Nodup ∧
      (totalName, ((([(otherName, 4096), (totalName, 4096)] : List (String × Nat)).filter
        (·.1 ≠ totalName)).map Prod.snd).sum) ∈ ([(otherName, 4096), (totalName, 4096)] : List (String × Nat)) ∧
      ∀ e ∈ ([(otherName, 4096), (totalName, 4096)] : List (String × Nat)), e.1 ≠ totalName →
        0 < e.2 ∧ (e.1 ≠ otherName → otherThreshold ≤ e.2) :=
  have h : residentSegments DigitClass.asciiOnly (IterOrder.asListed _)
      ["7fff0000-7fff1000 rw-p 00000000 00:00 0 ", "Rss: 4 kB"] =
        .ok [(otherName, 4096), (totalName, 4096)] := by
    have hscan : ["7fff0000-7fff1000 rw-p 00000000 00:00 0 ", "Rss: 4 kB"].foldlM
        (scanLine DigitClass.asciiOnly) ScanState.init =
          .ok ⟨.segment, "- anonymous (rw-p)", AList.insert otherName 4096 ∅⟩ :=
      rfl
    rw [residentSegments_of_scan hscan, finish_singleton (by decide), sortBySizeDesc_of_sorted (by decide)]
  ⟨h, residentSegments_shape _ _ h⟩

end Memprof.Smaps
