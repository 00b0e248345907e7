import Memprof.Proofs.SmapsScan

/-!
# The smaps loop over any reader, and what its vector depends on

`f.lines()` yields a line or a read error each time it is called, until the end
of the file; the loop passes over an error with `Err(_) => continue`. Over a
reader that yields finitely many results, a read error in the middle of the
file therefore costs exactly the line it stands for: the loop ends, one round
per result, with what `residentSegments` computes over the lines that were read.

Two facts hold of the vector however the loop was fed. Its names are the
scan's: each begins with the dash the scan prefixes to every name it builds,
except the total's, and no two are equal. And the `HashMap`'s iteration order,
which is not the program's to choose, only reorders entries of equal size: two
orders give the same outcome, the same sequence of sizes, and vectors that are
permutations of each other.
-/

namespace Memprof.Smaps

open Memprof

/-! ## Read errors -/

theorem scanSource_ofReads {ε : Type} (d : DigitClass) (rs : List (Except ε String)) :
    ∀ fuel i st, rs.length - i < fuel →
      scanSource d (LineSource.ofReads rs) fuel i st =
        some (((rs.drop i).filterMap Except.toOption).foldlM (scanLine d) st)
  | 0, _, _, h => absurd h (Nat.not_lt_zero _)
  | fuel + 1, i, st, h => by
      by_cases hi : i < rs.length
      · rw [List.drop_eq_getElem_cons hi, List.filterMap_cons]
        rcases hr : rs[i] with e | line
        · simp only [scanSource, LineSource.ofReads, List.getElem?_eq_getElem hi, hr, Except.toOption]
          exact scanSource_ofReads d rs fuel (i + 1) st (by omega)
        · simp only [scanSource, LineSource.ofReads, List.getElem?_eq_getElem hi, hr, Except.toOption,
            List.foldlM_cons]
          cases scanLine d st line with
          | error p => rfl
          | ok st' => exact scanSource_ofReads d rs fuel (i + 1) st' (by omega)
      · have hi : rs.length ≤ i := by omega
        simp [scanSource, LineSource.ofReads, List.getElem?_eq_none hi, List.drop_eq_nil_of_le hi]
        rfl

theorem getResidentSegments_skips_read_errors {ε : Type} (d : DigitClass) (o : IterOrder (String × Nat))
    (rs : List (Except ε String)) {fuel : Nat} (h : rs.length < fuel) :
    getResidentSegments d o (LineSource.ofReads rs) fuel =
      some (residentSegments d o (rs.filterMap Except.toOption)) := by
  simp only [getResidentSegments, scanSource_ofReads d rs fuel 0 _ (by omega), List.drop_zero,
    Option.map_some']
  rfl

/-- A header, an unreadable line, then the header's `Rss` line. -/
theorem getResidentSegments_skips_unreadable_line :
    ([.ok "00400000-0040b000 r-xp 00000000 08:01 1 /bin/a", .error (), .ok "Rss: 1024 kB"] :
        List (Except Unit String)).length < 4 ∧
      getResidentSegments DigitClass.asciiOnly (IterOrder.asListed _)
          (LineSource.ofReads [.ok "00400000-0040b000 r-xp 00000000 08:01 1 /bin/a", .error (),
            .ok "Rss: 1024 kB"]) 4 =
        some (residentSegments DigitClass.asciiOnly (IterOrder.asListed _)
          ["00400000-0040b000 r-xp 00000000 08:01 1 /bin/a", "Rss: 1024 kB"]) :=
  ⟨by decide, getResidentSegments_skips_read_errors _ _ _ (by decide)⟩

/-! ## Names -/

/-- A name the scan builds: it begins with a dash. -/
def Dashed (name : String) : Prop := name.data.head? = some '-'

instance : DecidablePred Dashed := fun n => inferInstanceAs (Decidable (n.data.head? = some '-'))

theorem segName_dashed (perms pathname : String) : Dashed (segName perms pathname) := by
  simp [Dashed, segName]

/-- Once a header was seen, the name a `Rss` line is filed under begins with a
dash, and so does every key of `seg_map`. -/
def NameInv (st : ScanState) : Prop :=
  (st.lookingFor = .rss → Dashed st.currSegName) ∧ ∀ k v, st.segMap.lookup k = some v → Dashed k

theorem addEntry_keys {m m' : HashMap String Nat} {name : String} {rss : Nat}
    (h : addEntry m name rss = .ok m') : ∀ k v, m'.lookup k = some v → k = name ∨ ∃ v', m.lookup k = some v' := by
  have hins : ∀ v₀ k v, (AList.insert name v₀ m).lookup k = some v → k = name ∨ ∃ v', m.lookup k = some v' :=
    fun v₀ k v hk => (eq_or_ne k name).imp_right fun hne => ⟨v, by rwa [AList.lookup_insert_ne hne] at hk⟩
  unfold addEntry at h
  split at h
  · cases h
    exact hins rss
  · cases hv : u64Add ‹Nat› rss with
    | error p => simp [hv, Except.map] at h
    | ok v =>
        simp only [hv, Except.map, Except.ok.injEq] at h
        exact h ▸ hins v

theorem scanLine_nameInv {d : DigitClass} {st st' : ScanState} {line : String} (hi : NameInv st)
    (h : scanLine d st line = .ok st') : NameInv st' := by
  unfold scanLine at h
  split at h
  · split at h
    · cases h
      exact hi
    · cases h
      exact ⟨fun _ => segName_dashed _ _, hi.2⟩
  · rename_i hl
    split at h
    · cases h
      exact hi
    · obtain ⟨_, -, h⟩ := bind_eq_ok.mp h
      obtain ⟨rss, -, h⟩ := bind_eq_ok.mp h
      split at h
      · obtain ⟨m, hm, h⟩ := bind_eq_ok.mp h
        cases pure_eq_ok.mp h
        refine ⟨(fun h => by cases h), fun k v hk => ?_⟩
        rcases addEntry_keys hm k v hk with rfl | ⟨v', hv'⟩
        · split
          · decide
          · exact hi.1 hl
        · exact hi.2 k v' hv'
      · cases pure_eq_ok.mp h
        exact ⟨(fun h => by cases h), hi.2⟩

/-- What holds of the scan's state before every line holds after the loop,
read errors and all. -/
theorem scanSource_inv {ε : Type} {d : DigitClass} {src : LineSource ε} (P : ScanState → Prop)
    (hstep : ∀ st line st', P st → scanLine d st line = .ok st' → P st') :
    ∀ fuel i st st', P st → scanSource d src fuel i st = some (.ok st') → P st'
  | 0, _, _, _, _, h => by cases h
  | fuel + 1, i, st, st', hs, h => by
      unfold scanSource at h
      split at h
      · cases h
        exact hs
      · exact scanSource_inv P hstep fuel (i + 1) st st' hs h
      · split at h
        · cases h
        · exact scanSource_inv P hstep fuel (i + 1) _ st' (hstep _ _ _ hs ‹_›) h

theorem finish_names {o : IterOrder (String × Nat)} {m : HashMap String Nat} {out : List (String × Nat)}
    (h : finish o m = .ok out) (hm : ∀ k v, m.lookup k = some v → Dashed k) :
    (out.map Prod.fst).Nodup ∧ ∀ x ∈ out, Dashed x.1 ∨ x.1 = totalName := by
  have hperm := finish_eq_ok h ▸ sortBySizeDesc_perm _
  have hseg : ∀ x ∈ o.arrange (HashMap.pairs m), Dashed x.1 := fun x hx =>
    hm x.1 x.2 (HashMap.mem_pairs.mp ((o.perm _).subset hx))
  refine ⟨(hperm.map Prod.fst).nodup_iff.mpr ?_, fun x hx => ?_⟩
  · rw [List.map_append, List.nodup_append]
    refine ⟨((o.perm _).map Prod.fst).nodup_iff.mpr (HashMap.pairs_nodup_keys _), List.nodup_singleton _,
      List.disjoint_singleton.mpr fun hx => ?_⟩
    obtain ⟨x, hx, hxe⟩ := List.mem_map.mp hx
    have : Dashed totalName := (show x.1 = totalName from hxe) ▸ hseg x hx
    exact absurd this (by decide)
  · rcases List.mem_append.mp (hperm.subset hx) with hx | hx
    · exact .inl (hseg x hx)
    · exact .inr (by rw [List.mem_singleton.mp hx])

/-- The vector's names, however the loop was fed: distinct, and each a dashed
segment name or the total's. -/
theorem getResidentSegments_names {ε : Type} {d : DigitClass} {o : IterOrder (String × Nat)}
    {src : LineSource ε} {fuel : Nat} {out : List (String × Nat)}
    (h : getResidentSegments d o src fuel = some (.ok out)) :
    (out.map Prod.fst).Nodup ∧ ∀ x ∈ out, Dashed x.1 ∨ x.1 = totalName := by
  unfold getResidentSegments at h
  rcases hs : scanSource d src fuel 0 ScanState.init with _ | _ | st
  · simp [hs] at h
  · simp [hs, Except.bind] at h
  · simp only [hs, Option.map_some', Option.some.injEq] at h
    exact finish_names h (scanSource_inv NameInv (fun _ _ _ => scanLine_nameInv) fuel 0 _ st
      ⟨(fun h => by cases h), fun _ _ h => by simp [ScanState.init] at h⟩ hs).2

/-! ## The iteration order -/

/-- The only panic of a chain of checked additions is the overflow. -/
theorem foldlM_u64Add_error : ∀ {ys : List Nat} {a : Nat} {p : Panic},
    ys.foldlM u64Add a = .error p → p = .overflow
  | [], _, _, h => by cases h
  | y :: ys, a, _, h => by
      rw [List.foldlM_cons] at h
      rcases ha : u64Add a y with q | b
      · rw [ha] at h
        cases h
        unfold u64Add checkU64 at ha
        split at ha <;> cases ha
        rfl
      · rw [ha] at h
        exact foldlM_u64Add_error h

/-- The checked `.sum()` panics exactly when the sum does not fit, and then with
the overflow. -/
theorem u64Sum_eq (xs : List Nat) :
    u64Sum xs = if xs.sum < u64Limit then .ok xs.sum else .error .overflow := by
  split
  · exact u64Sum_eq_ok.mpr ⟨rfl, ‹_›⟩
  · rcases h : u64Sum xs with p | t
    · rw [foldlM_u64Add_error h]
    · exact absurd (u64Sum_eq_ok.mp h).2 ‹_›

/-- `finish` totals the map in the given order, and panics exactly when the
total does not fit. -/
theorem finish_eq (o : IterOrder (String × Nat)) (m : HashMap String Nat) :
    finish o m =
      if ((o.arrange (HashMap.pairs m)).map Prod.snd).sum < u64Limit then
        .ok (sortBySizeDesc (o.arrange (HashMap.pairs m) ++
          [(totalName, ((o.arrange (HashMap.pairs m)).map Prod.snd).sum)]))
      else .error .overflow := by
  simp only [finish, u64Sum_eq]
  split <;> rfl

/-- `finish` under two iteration orders: the same outcome, the same sizes in
the same order, and the same entries. -/
theorem finish_iterOrder (o o' : IterOrder (String × Nat)) (m : HashMap String Nat) :
    (finish o m).map (fun out => out.map Prod.snd) = (finish o' m).map (fun out => out.map Prod.snd) ∧
      ∀ out out', finish o m = .ok out → finish o' m = .ok out' → out'.Perm out := by
  have hp : (o'.arrange (HashMap.pairs m)).Perm (o.arrange (HashMap.pairs m)) :=
    (o'.perm _).trans (o.perm _).symm
  rw [finish_eq o, finish_eq o', (hp.map Prod.snd).sum_eq]
  generalize o.arrange (HashMap.pairs m) = l at hp ⊢
  generalize o'.arrange (HashMap.pairs m) = l' at hp ⊢
  have hout : (sortBySizeDesc (l' ++ [(totalName, (l.map Prod.snd).sum)])).Perm
      (sortBySizeDesc (l ++ [(totalName, (l.map Prod.snd).sum)])) :=
    ((sortBySizeDesc_perm _).trans (hp.append_right _)).trans (sortBySizeDesc_perm _).symm
  have hsorted : ∀ l, ((sortBySizeDesc l).map Prod.snd).Sorted fun a b => b ≤ a := fun l =>
    List.pairwise_map.mpr (sortBySizeDesc_sorted l)
  split
  · refine ⟨congrArg Except.ok (List.eq_of_perm_of_sorted (hout.map _) (hsorted _) (hsorted _)).symm,
      fun out out' h h' => ?_⟩
    cases h
    cases h'
    exact hout
  · exact ⟨rfl, fun _ _ h => by cases h⟩

theorem getResidentSegments_iterOrder {ε : Type} (d : DigitClass) (o o' : IterOrder (String × Nat))
    (src : LineSource ε) (fuel : Nat) :
    (getResidentSegments d o src fuel).map (Except.map fun out => out.map Prod.snd) =
        (getResidentSegments d o' src fuel).map (Except.map fun out => out.map Prod.snd) ∧
      ∀ out out', getResidentSegments d o src fuel = some (.ok out) →
        getResidentSegments d o' src fuel = some (.ok out') → out'.Perm out := by
  unfold getResidentSegments
  rcases scanSource d src fuel 0 ScanState.init with _ | _ | st
  · exact ⟨rfl, fun _ _ h => by cases h⟩
  · exact ⟨rfl, fun _ _ h => by cases h⟩
  · obtain ⟨hmap, hperm⟩ := finish_iterOrder o o' st.segMap
    exact ⟨congrArg some hmap, fun out out' h h' => hperm out out' (Option.some.inj h) (Option.some.inj h')⟩

end Memprof.Smaps
