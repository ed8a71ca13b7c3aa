import PumpGrok.Backtest.Search
import PumpGrok.Lib.Blocks

/-!
The windows of a search over a sequence of stamps. The distinct stamps below the cutoff are cut
evenly; the folds test every block but the first, and the holdout takes what the cutoff leaves.
-/

namespace PumpGrok

namespace Backtest

/-- The windows tile the tuning region of the stamps. -/
structure Tiles (stamps : List ℚ) (cutoff : ℚ) (n : ℕ) (ws : FoldWindows) : Prop where
  count : ws.folds.length = n
  /-- Each ends where the next starts. -/
  contiguous : ws.folds.IsChain fun w w' => w.endTs = some w'.startTs
  /-- In order and without a common point. -/
  ordered : ws.folds.Pairwise fun w w' => ∀ e, w.endTs = some e → e ≤ w'.startTs
  bounded : ∀ w ∈ ws.folds, ∃ e, w.endTs = some e ∧ w.startTs < e ∧ e ≤ cutoff
  inhabited : ∀ w ∈ ws.folds, ∃ t ∈ stamps, w.holds t = true
  /-- A stamp of the tuning region is in one window, once the first has started. -/
  once : ∀ t, t < cutoff → (∀ w ∈ ws.folds.head?, w.startTs ≤ t) →
    ws.folds.countP (·.holds t) = 1
  training : ∃ t ∈ stamps, ∀ w ∈ ws.folds, t < w.startTs
  holdout : ∀ t, ws.holdout.holds t = true ↔ ¬ t < cutoff

/-! ### The distinct stamps -/

section Distinct

variable {cutoff : ℚ} {stamps : List ℚ}

lemma mem_distinctBelow {t : ℚ} : t ∈ distinctBelow cutoff stamps ↔ t ∈ stamps ∧ t < cutoff := by
  simp [distinctBelow]

lemma distinctBelow_increasing : (distinctBelow cutoff stamps).Pairwise (· < ·) := by
  have hsorted := List.pairwise_insertionSort (· ≤ ·) (stamps.filter (· < cutoff)).dedup
  have hnodup : (distinctBelow cutoff stamps).Nodup :=
    (List.perm_insertionSort _ _).nodup_iff.mpr (List.nodup_dedup _)
  exact (hsorted.and hnodup).imp fun h => lt_of_le_of_ne h.1 h.2

lemma length_distinctBelow : (distinctBelow cutoff stamps).length =
    (stamps.toFinset.filter (· < cutoff)).card := by
  rw [distinctBelow, List.length_insertionSort, ← List.card_toFinset]
  congr 1
  ext t
  simp

lemma length_distinctBelow_le : (distinctBelow cutoff stamps).length ≤
    stamps.countP (· < cutoff) := by
  rw [distinctBelow, List.length_insertionSort, List.countP_eq_length_filter]
  exact (List.dedup_sublist _).length_le

/-- Where block `j` starts; the last one ends at the cutoff. -/
def edge (cutoff : ℚ) (stamps : List ℚ) (n j : ℕ) : ℚ :=
  (distinctBelow cutoff stamps).getD (Blocks.cut (distinctBelow cutoff stamps).length n j) cutoff

variable {n j : ℕ}

lemma foldRange_eq : foldRange cutoff (distinctBelow cutoff stamps) n j =
    (edge cutoff stamps n j, edge cutoff stamps n (j + 1)) := by
  unfold foldRange edge Blocks.cut
  simp only [Prod.mk.injEq, true_and]
  split_ifs with h
  · rfl
  · exact (List.getD_eq_default _ _ (not_lt.mp h)).symm

lemma edge_last : edge cutoff stamps n (n + 1) = cutoff := by
  rw [edge, Blocks.cut_last]
  exact List.getD_eq_default _ _ le_rfl

lemma edge_mem (h : n + 1 ≤ (distinctBelow cutoff stamps).length) (hj : j ≤ n) :
    edge cutoff stamps n j ∈ distinctBelow cutoff stamps := by
  rw [edge, List.getD_eq_getElem _ _ (Blocks.cut_lt h hj)]
  exact List.getElem_mem _

lemma edge_lt_succ (h : n + 1 ≤ (distinctBelow cutoff stamps).length) (hj : j ≤ n) :
    edge cutoff stamps n j < edge cutoff stamps n (j + 1) := by
  rcases hj.lt_or_eq with hlt | rfl
  · rw [edge, edge, List.getD_eq_getElem _ _ (Blocks.cut_lt h hj),
      List.getD_eq_getElem _ _ (Blocks.cut_lt h hlt)]
    exact List.pairwise_iff_getElem.mp distinctBelow_increasing _ _ _ _ (Blocks.cut_lt_succ h)
  · rw [edge_last]
    exact (mem_distinctBelow.mp (edge_mem h le_rfl)).2

lemma edge_le {i : ℕ} (h : n + 1 ≤ (distinctBelow cutoff stamps).length) (hij : i ≤ j)
    (hj : j ≤ n + 1) : edge cutoff stamps n i ≤ edge cutoff stamps n j := by
  induction j with
  | zero => rw [Nat.le_zero.mp hij]
  | succ j ih =>
    rcases hij.lt_or_eq with hlt | rfl
    · exact (ih (by omega) (by omega)).trans (edge_lt_succ h (by omega)).le
    · exact le_rfl

end Distinct

/-! ### The windows -/

section Tiling

variable {χ : Type} {round : ℚ → ℚ} {stamps : List ℚ} {dataset : Text} {cutoff : ℚ}

/-- What `fold_windows` answers, once the cutoff is known. -/
lemma foldWindows_eq {nFolds : ℤ} (hd : dataset ≠ []) (hn : 1 ≤ nFolds)
    (hc : cutoffTs (χ := χ) round stamps = .ok cutoff) :
    (∃ e : SearchError χ, foldWindows round stamps dataset nFolds = .error e) ∧
        ((distinctBelow cutoff stamps).length : ℤ) < nFolds + 1 ∨
      ∃ ids : List Text, nFolds + 1 ≤ (distinctBelow cutoff stamps).length ∧
        foldWindows (χ := χ) round stamps dataset nFolds = .ok
          { folds := (List.range' 1 nFolds.toNat).map fun k =>
              { windowId := ids.getD (k - 1) []
                startTs := edge cutoff stamps nFolds.toNat k
                endTs := some (edge cutoff stamps nFolds.toNat (k + 1)) }
            holdout :=
              { windowId := dataset ++ "-holdout".toList, startTs := cutoff, endTs := none } } := by
  have hle : (distinctBelow cutoff stamps).length ≤ stamps.countP (· < cutoff) :=
    length_distinctBelow_le
  unfold foldWindows walkForwardFolds holdoutSplit
  simp only [requireDataset, if_neg hd, hc, bind, Except.bind, if_neg (show ¬ nFolds < 1 by omega)]
  by_cases hpre : (stamps.countP (· < cutoff) : ℤ) < nFolds + 1
  · simp only [if_pos hpre]
    exact .inl ⟨⟨_, rfl⟩, by omega⟩
  · simp only [if_neg hpre]
    by_cases hdistinct : ((distinctBelow cutoff stamps).length : ℤ) < nFolds + 1
    · simp only [if_pos hdistinct]
      exact .inl ⟨⟨_, rfl⟩, hdistinct⟩
    · simp only [if_neg hdistinct, foldRange_eq]
      exact .inr ⟨_, by omega, rfl⟩

/-- Windows at the edges tile. -/
lemma tiles_edges {n : ℕ} (h : n + 1 ≤ (distinctBelow cutoff stamps).length) (hn : 1 ≤ n)
    (ids : List Text) (holdoutId : Text) :
    Tiles stamps cutoff n
      { folds := (List.range' 1 n).map fun k =>
          { windowId := ids.getD (k - 1) []
            startTs := edge cutoff stamps n k
            endTs := some (edge cutoff stamps n (k + 1)) }
        holdout := { windowId := holdoutId, startTs := cutoff, endTs := none } } where
  count := by simp
  contiguous := by
    rw [List.isChain_map]
    exact (List.isChain_range' 1 n 1).imp fun k k' hk => by rw [← hk]
  ordered := by
    rw [List.pairwise_map]
    refine (List.pairwise_lt_range' (s := 1) (n := n)).imp_of_mem fun {k k'} _ hk' hlt e he => ?_
    rw [← Option.some.inj he]
    exact edge_le h hlt (by rw [List.mem_range'_1] at hk'; omega)
  bounded := by
    intro w hw
    obtain ⟨k, hk, rfl⟩ := List.mem_map.mp hw
    rw [List.mem_range'_1] at hk
    refine ⟨_, rfl, edge_lt_succ h (by omega), ?_⟩
    exact (edge_le h (by omega) le_rfl).trans edge_last.le
  inhabited := by
    intro w hw
    obtain ⟨k, hk, rfl⟩ := List.mem_map.mp hw
    rw [List.mem_range'_1] at hk
    refine ⟨edge cutoff stamps n k, (mem_distinctBelow.mp (edge_mem h (by omega))).1, ?_⟩
    simp [EvalWindow.holds, edge_lt_succ h (show k ≤ n by omega)]
  once := by
    intro t ht hfirst
    have hstart : edge cutoff stamps n 1 ≤ t := by
      obtain ⟨m, rfl⟩ : ∃ m, n = m + 1 := ⟨n - 1, by omega⟩
      exact hfirst
        { windowId := ids.getD (1 - 1) []
          startTs := edge cutoff stamps (m + 1) 1
          endTs := some (edge cutoff stamps (m + 1) (1 + 1)) } rfl
    have hup : ∀ k, 1 ≤ k → k ≤ n → edge cutoff stamps n k ≤ edge cutoff stamps n (k + 1) :=
      fun k _ hk => (edge_lt_succ h hk).le
    have hblocks := Blocks.countP_blocks hup t
    rw [edge_last, if_pos ⟨hstart, ht⟩] at hblocks
    rw [List.countP_map]
    exact hblocks
  training := by
    refine ⟨edge cutoff stamps n 0, (mem_distinctBelow.mp (edge_mem h (by omega))).1, ?_⟩
    intro w hw
    obtain ⟨k, hk, rfl⟩ := List.mem_map.mp hw
    rw [List.mem_range'_1] at hk
    exact (edge_lt_succ h (by omega)).trans_le (edge_le h (by omega) (by omega))
  holdout := by simp [EvalWindow.holds]

/-- **Walk-forward windows tile the tuning region**, for every sequence of stamps and every way
the cutoff is rounded; they are refused exactly when there are fewer distinct stamps below the
cutoff than blocks. -/
theorem windows_tile (χ : Type) (round : ℚ → ℚ) (stamps : List ℚ) (dataset : Text) (nFolds : ℤ)
    (hd : dataset ≠ []) (hn : 1 ≤ nFolds) :
    ((∃ e : SearchError χ, foldWindows round stamps dataset nFolds = .error e) ↔
        ∀ cutoff, cutoffTs (χ := χ) round stamps = .ok cutoff →
          ((stamps.toFinset.filter (· < cutoff)).card : ℤ) < nFolds + 1) ∧
      ∀ ws, foldWindows (χ := χ) round stamps dataset nFolds = .ok ws →
        ∃ cutoff, cutoffTs (χ := χ) round stamps = .ok cutoff ∧
          Tiles stamps cutoff nFolds.toNat ws := by
  rcases hc : cutoffTs (χ := χ) round stamps with e | cutoff
  · have hrun : foldWindows (χ := χ) round stamps dataset nFolds = .error e := by
      unfold foldWindows walkForwardFolds
      simp only [requireDataset, if_neg hd, hc, bind, Except.bind,
        if_neg (show ¬ nFolds < 1 by omega)]
    refine ⟨iff_of_true ⟨e, hrun⟩ fun _ h => ?_, fun ws h => ?_⟩
    · cases h
    · rw [hrun] at h
      cases h
  · rcases foldWindows_eq hd hn hc with ⟨⟨e, hrun⟩, hfew⟩ | ⟨ids, hmany, hrun⟩
    · refine ⟨iff_of_true ⟨e, hrun⟩ fun c h => ?_, fun ws h => ?_⟩
      · rw [← Except.ok.inj h, ← length_distinctBelow]
        exact hfew
      · rw [hrun] at h
        cases h
    · refine ⟨iff_of_false ?_ fun h => ?_, fun ws h => ⟨cutoff, rfl, ?_⟩⟩
      · rintro ⟨e, he⟩
        rw [hrun] at he
        cases he
      · have := h cutoff rfl
        rw [← length_distinctBelow] at this
        omega
      · rw [hrun] at h
        rw [← Except.ok.inj h]
        exact tiles_edges (by omega) (by omega) ids _

/-- Unsorted stamps with a repeat. -/
def sampleStamps : List ℚ := [40, 10, 10, 20, 0, 50]

/-- Rounding down to whole seconds. -/
def wholeSeconds (t : ℚ) : ℚ := ⌊t⌋

/-- Two folds test the second and the third block; the holdout starts at forty. -/
theorem windows_tile_sample :
    ∃ ws, foldWindows (χ := Empty) wholeSeconds sampleStamps "d".toList 2 = .ok ws ∧
      ws.folds.map (fun w => (w.startTs, w.endTs)) = [(10, some 20), (20, some 40)] ∧
      ws.holdout.startTs = 40 ∧ Tiles sampleStamps 40 2 ws := by
  have hd : "d".toList ≠ [] := by decide
  have hcutoff : cutoffTs (χ := Empty) wholeSeconds sampleStamps = .ok 40 :=
    congrArg Except.ok (by decide +kernel)
  obtain ⟨-, hfew⟩ | ⟨ids, -, hrun⟩ := foldWindows_eq hd (show (1 : ℤ) ≤ 2 by norm_num)
    hcutoff
  · exact absurd hfew (by decide +kernel)
  · have hedges : edge 40 sampleStamps 2 1 = 10 ∧ edge 40 sampleStamps 2 2 = 20 ∧
        edge 40 sampleStamps 2 3 = 40 := by decide +kernel
    refine ⟨_, hrun, ?_, rfl, ?_⟩
    · simp [List.range', hedges]
    · obtain ⟨cutoff, hc, htiles⟩ :=
        (windows_tile Empty wholeSeconds sampleStamps "d".toList 2 hd (by norm_num)).2 _ hrun
      rw [hcutoff] at hc
      obtain rfl := Except.ok.inj hc
      exact htiles

end Tiling

end Backtest

end PumpGrok
