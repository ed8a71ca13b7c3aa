import PumpGrok.Backtest.Candidate
import PumpGrok.Backtest.Trials
import PumpGrok.Lib.Prog

/-!
The search: candidates are scored over fold windows below the holdout cutoff, each is recorded as a
trial, and the best is kept. Replaying one window is a function of the events of the window, the
candidate and the settings of the run.

Times are exact values of doubles; `round` is the rounding of one operation.
-/

namespace PumpGrok

open Json (Value)

namespace Backtest

/-! ### The split -/

inductive SearchError (χ : Type) where
  | emptyDataset
  | trialCount (n : ℤ)
  | spaceTooSmall (n : ℤ) (candidates : ℕ)
  | noStamps
  | foldCount
  | fewStamps (needed : ℕ) (found : ℕ)
  | fewInstants (needed : ℕ) (found : ℕ)
  | notStable (message : Text)
  | invalidCandidate
  | unhashable
  | trial (e : Trials.TrialError)
  | holdoutObserved
  | windowReversed (windowId : Text)
  | windowEmpty (windowId : Text)
  | replay (e : χ)
  /-- an assertion: no candidate was scored, or the verdicts and the count disagree -/
  | unscored
  | verdictsDisagree

variable {χ : Type}

/-- The double `0.20`. -/
def holdoutFraction : ℚ := 3602879701896397 / 18014398509481984

structure HoldoutSplit where
  dataset : Text
  trainIds : List Text
  holdoutId : Text
  trainEndTs : ℚ
  holdoutStartTs : ℚ

def requireDataset (dataset : Text) : Except (SearchError χ) Unit :=
  if dataset = [] then .error .emptyDataset else .ok ()

def cutoffTs (round : ℚ → ℚ) (stamps : List ℚ) : Except (SearchError χ) ℚ :=
  match stamps.min?, stamps.max? with
  | some low, some high => .ok (round (high - round (holdoutFraction * round (high - low))))
  | _, _ => .error .noStamps

/-- `{dataset}-{part}-{k}`. -/
def partId (dataset : Text) (part : String) (k : ℕ) : Text :=
  dataset ++ '-' :: part.toList ++ '-' :: Json.decimal k

def holdoutSplit (round : ℚ → ℚ) (stamps : List ℚ) (dataset : Text) :
    Except (SearchError χ) HoldoutSplit := do
  requireDataset dataset
  let cutoff ← cutoffTs round stamps
  .ok
    { dataset := dataset
      trainIds := (stamps.zipIdx.filter fun x => x.1 < cutoff).map fun x =>
        partId dataset "train" x.2
      holdoutId := dataset ++ "-holdout".toList
      trainEndTs := cutoff
      holdoutStartTs := cutoff }

def walkForwardFolds (round : ℚ → ℚ) (stamps : List ℚ) (dataset : Text) (nFolds : ℤ) :
    Except (SearchError χ) (List (Text × Text)) := do
  requireDataset dataset
  if nFolds < 1 then .error .foldCount
  let cutoff ← cutoffTs round stamps
  let preCount := stamps.countP (· < cutoff)
  if (preCount : ℤ) < nFolds + 1 then .error (.fewStamps (nFolds + 1).toNat preCount)
  .ok ((List.range' 1 nFolds.toNat).map fun k =>
    (partId dataset "train" k, partId dataset "test" k))

/-- A range of stamps, without its end; no end is the positive infinity. -/
structure EvalWindow where
  windowId : Text
  startTs : ℚ
  endTs : Option ℚ

structure FoldWindows where
  folds : List EvalWindow
  holdout : EvalWindow

/-- The distinct stamps below the cutoff, in order. -/
def distinctBelow (cutoff : ℚ) (stamps : List ℚ) : List ℚ :=
  (stamps.filter (· < cutoff)).dedup.insertionSort (· ≤ ·)

/-- The range of fold `position` of `n` over the distinct stamps. -/
def foldRange (cutoff : ℚ) (distinct : List ℚ) (n position : ℕ) : ℚ × ℚ :=
  let total := distinct.length
  let startPos := position * total / (n + 1)
  let endPos := (position + 1) * total / (n + 1)
  (distinct.getD startPos cutoff, if endPos < total then distinct.getD endPos cutoff else cutoff)

def foldWindows (round : ℚ → ℚ) (stamps : List ℚ) (dataset : Text) (nFolds : ℤ) :
    Except (SearchError χ) FoldWindows := do
  let pairs ← walkForwardFolds round stamps dataset nFolds
  let split ← holdoutSplit round stamps dataset
  let cutoff := split.holdoutStartTs
  let distinct := distinctBelow cutoff stamps
  if (distinct.length : ℤ) < nFolds + 1 then
    .error (.fewInstants (nFolds + 1).toNat distinct.length)
  .ok
    { folds := (List.range' 1 nFolds.toNat).map fun position =>
        let range := foldRange cutoff distinct nFolds.toNat position
        { windowId := (pairs.map Prod.snd).getD (position - 1) []
          startTs := range.1
          endTs := some range.2 }
      holdout := { windowId := split.holdoutId, startTs := cutoff, endTs := none } }

/-! ### Scoring -/

/-- A recorded dataset. -/
structure Recording (ε : Type) where
  dataset : Text
  events : List ε

/-- Rounding, the stamp of an event, and the net of one replayed window. -/
structure Harness (deps : CandidateDeps) (ε ρ χ : Type) where
  round : ℚ → ℚ
  epoch : ε → ℚ
  replay : ρ → List ε → CandidateParams deps → Except χ ℤ

def EvalWindow.holds (w : EvalWindow) (ts : ℚ) : Bool := w.startTs ≤ ts && w.endTs.all (ts < ·)

variable {deps : CandidateDeps} {ε ρ : Type}

def evaluateWindow (h : Harness deps ε ρ χ) (settings : ρ) (r : Recording ε)
    (params : CandidateParams deps) (window : EvalWindow) : Except (SearchError χ) ℤ :=
  if window.endTs.any (· < window.startTs) then .error (.windowReversed window.windowId)
  else
    let chosen := r.events.filter fun e => window.holds (h.epoch e)
    if chosen = [] then .error (.windowEmpty window.windowId)
    else (h.replay settings chosen params).mapError .replay

/-- The net over the folds; no fold may reach past the cutoff. -/
def foldTotal (h : Harness deps ε ρ χ) (settings : ρ) (r : Recording ε) (cutoff : ℚ)
    (params : CandidateParams deps) : List EvalWindow → Except (SearchError χ) ℤ
  | [] => .ok 0
  | w :: ws => do
    if ¬ w.endTs.any (· ≤ cutoff) then .error .holdoutObserved
    let net ← evaluateWindow h settings r params w
    let rest ← foldTotal h settings r cutoff params ws
    .ok (net + rest)

/-! ### The selection loop -/

/-- The candidate kept so far. -/
structure Best (deps : CandidateDeps) where
  paramsHash : Hash
  params : CandidateParams deps
  mean : ℤ

/-- The trial file, the ledger of this search, and the best so far. -/
structure Tuning (deps : CandidateDeps) where
  file : Option Bytes
  ledger : Trials.TrialLedger
  best : Option (Best deps) := none

abbrev Tune (deps : CandidateDeps) (χ α : Type) := Prog (Tuning deps) (SearchError χ) α

def lift {α : Type} (e : Except (SearchError χ) α) : Tune deps χ α := fun t => (e, t)

def orRaise {α : Type} (e : SearchError χ) : Option α → Except (SearchError χ) α
  | none => .error e
  | some a => .ok a

def recordTrial (paramsHash : Hash) : Tune deps χ Unit := fun t =>
  let r := Trials.recordTrial t.ledger paramsHash t.file
  ((r.1.map fun _ => ()).mapError .trial, { t with file := r.2.1, ledger := r.2.2 })

/-- Strictly greater, so that ties keep the earlier candidate. -/
def keepBetter (b : Best deps) (t : Tuning deps) : Tuning deps :=
  match t.best with
  | none => { t with best := some b }
  | some c => if b.mean > c.mean then { t with best := some b } else t

def tryCandidate (h : Harness deps ε ρ χ) (settings : ρ) (r : Recording ε) (cutoff : ℚ)
    (folds : List EvalWindow) (mapping : Overrides) : Tune deps χ Unit := do
  let _ ← lift ((CanonicalJson.canonicalJson mapping).mapError .notStable)
  let params ← lift (orRaise .invalidCandidate (candidateFrom deps mapping))
  let paramsHash ← lift (orRaise .unhashable (contentHash params))
  recordTrial paramsHash
  let total ← lift (foldTotal h settings r cutoff params folds)
  Prog.modify (keepBetter ⟨paramsHash, params, total / (folds.length : ℤ)⟩)

def tune (h : Harness deps ε ρ χ) (settings : ρ) (r : Recording ε) (cutoff : ℚ)
    (folds : List EvalWindow) : List Overrides → Tune deps χ Unit
  | [] => pure ()
  | m :: ms => do
    tryCandidate h settings r cutoff folds m
    tune h settings r cutoff folds ms

/-- What a search starts from: the space and the counts, the run and its trial file. -/
structure SearchInput (ρ : Type) where
  settings : ρ
  space : List Overrides
  nTrials : ℤ
  nFolds : ℤ
  runId : Text
  file : Option Bytes

/-- The windows of a recording, once the counts are in order. -/
def plan (h : Harness deps ε ρ χ) (i : SearchInput ρ) (r : Recording ε) :
    Except (SearchError χ) (HoldoutSplit × FoldWindows) := do
  requireDataset r.dataset
  if i.nTrials < 1 then .error (.trialCount i.nTrials)
  if (i.space.length : ℤ) < i.nTrials then .error (.spaceTooSmall i.nTrials i.space.length)
  let stamps := r.events.map h.epoch
  let split ← holdoutSplit h.round stamps r.dataset
  let windows ← foldWindows h.round stamps r.dataset i.nFolds
  .ok (split, windows)

/-- Everything before the holdout is evaluated: the windows and the tuning, and the trial file. -/
def searchFolds (h : Harness deps ε ρ χ) (i : SearchInput ρ) (r : Recording ε) :
    Except (SearchError χ) (HoldoutSplit × FoldWindows × Tuning deps) × Option Bytes :=
  match plan h i r with
  | .error e => (.error e, i.file)
  | .ok (split, windows) =>
    match Trials.newLedger i.runId i.file with
    | .error e => (.error (.trial e), i.file)
    | .ok ledger =>
      match tune h i.settings r split.holdoutStartTs windows.folds (i.space.take i.nTrials.toNat)
          ⟨i.file, ledger, none⟩ with
      | (.error e, t) => (.error e, t.file)
      | (.ok (), t) => (.ok (split, windows, t), t.file)

structure HarnessResult where
  bestParamsHash : Hash
  holdoutId : Text
  trialCount : ℕ
  eligibleForPromotion : Bool
  holdoutNetLamports : ℤ
  bestNetLamports : ℤ

/-- Tune over the folds, then evaluate the winner on the holdout once. -/
def runSearch (h : Harness deps ε ρ χ) (i : SearchInput ρ) (r : Recording ε) :
    Except (SearchError χ) HarnessResult × Option Bytes :=
  match searchFolds h i r with
  | (.error e, file) => (.error e, file)
  | (.ok (split, windows, t), file) =>
    match t.best with
    | none => (.error .unscored, file)
    | some b =>
      match evaluateWindow h i.settings r b.params windows.holdout with
      | .error e => (.error e, file)
      | .ok net =>
        let eligible := t.ledger.trials.all (·.eligibleForPromotion)
        if eligible ≠ decide (t.ledger.trials.length ≤ Trials.maxEligibleTrials) then
          (.error .verdictsDisagree, file)
        else
          (.ok
            { bestParamsHash := b.paramsHash
              holdoutId := split.holdoutId
              trialCount := t.ledger.trials.length
              eligibleForPromotion := eligible
              holdoutNetLamports := net
              bestNetLamports := b.mean }, file)

/-! ### Recordings that agree below the cutoff -/

section Agreement

variable {h : Harness deps ε ρ χ} {i : SearchInput ρ} {r r' : Recording ε} {cutoff : ℚ}

def Recording.stamps (h : Harness deps ε ρ χ) (r : Recording ε) : List ℚ := r.events.map h.epoch

/-- The same stamps, and the same events below the cutoff. -/
structure Agree (h : Harness deps ε ρ χ) (r r' : Recording ε) : Prop where
  named : r.dataset ≠ []
  named' : r'.dataset ≠ []
  stamps : r.stamps h = r'.stamps h
  below : ∀ cutoff, cutoffTs (χ := χ) h.round (r.stamps h) = .ok cutoff →
    (r.events.filter fun e => h.epoch e < cutoff) = r'.events.filter fun e => h.epoch e < cutoff

/-- Windows of one range. -/
def SameRange (w w' : EvalWindow) : Prop := w.startTs = w'.startTs ∧ w.endTs = w'.endTs

/-- The checks of `plan` and the cutoff, which depend on the stamps alone. -/
def planCutoff (h : Harness deps ε ρ χ) (i : SearchInput ρ) (stamps : List ℚ) :
    Except (SearchError χ) ℚ := do
  if i.nTrials < 1 then .error (.trialCount i.nTrials)
  if (i.space.length : ℤ) < i.nTrials then .error (.spaceTooSmall i.nTrials i.space.length)
  let cutoff ← cutoffTs h.round stamps
  if i.nFolds < 1 then .error .foldCount
  let preCount := stamps.countP (· < cutoff)
  if (preCount : ℤ) < i.nFolds + 1 then .error (.fewStamps (i.nFolds + 1).toNat preCount)
  let distinct := distinctBelow cutoff stamps
  if (distinct.length : ℤ) < i.nFolds + 1 then
    .error (.fewInstants (i.nFolds + 1).toNat distinct.length)
  .ok cutoff

def splitOf (r : Recording ε) (stamps : List ℚ) (cutoff : ℚ) : HoldoutSplit where
  dataset := r.dataset
  trainIds := (stamps.zipIdx.filter fun x => x.1 < cutoff).map fun x => partId r.dataset "train" x.2
  holdoutId := r.dataset ++ "-holdout".toList
  trainEndTs := cutoff
  holdoutStartTs := cutoff

def windowsOf (r : Recording ε) (stamps : List ℚ) (nFolds : ℕ) (cutoff : ℚ) : FoldWindows where
  folds := (List.range' 1 nFolds).map fun position =>
    let range := foldRange cutoff (distinctBelow cutoff stamps) nFolds position
    { windowId := (((List.range' 1 nFolds).map fun k =>
        (partId r.dataset "train" k, partId r.dataset "test" k)).map Prod.snd).getD
          (position - 1) []
      startTs := range.1
      endTs := some range.2 }
  holdout := { windowId := r.dataset ++ "-holdout".toList, startTs := cutoff, endTs := none }

lemma plan_eq (hn : r.dataset ≠ []) :
    plan h i r = (planCutoff h i (r.stamps h)).map fun cutoff =>
      (splitOf r (r.stamps h) cutoff, windowsOf r (r.stamps h) i.nFolds.toNat cutoff) := by
  have hd : requireDataset (χ := χ) r.dataset = .ok () := by simp [requireDataset, hn]
  have hs : r.stamps h = r.events.map h.epoch := rfl
  rw [hs]
  unfold plan planCutoff holdoutSplit foldWindows walkForwardFolds holdoutSplit
  simp only [hd, bind, Except.bind, Except.map]
  rcases cutoffTs (χ := χ) h.round (r.events.map h.epoch) with e | cutoff
  · split_ifs <;> rfl
  · dsimp only
    by_cases h₁ : i.nTrials < 1
    · simp only [if_pos h₁]
    by_cases h₂ : (i.space.length : ℤ) < i.nTrials
    · simp only [if_neg h₁, if_pos h₂]
    by_cases h₃ : i.nFolds < 1
    · simp only [if_neg h₁, if_neg h₂, if_pos h₃]
    by_cases h₄ : ((r.events.map h.epoch).countP (· < cutoff) : ℤ) < i.nFolds + 1
    · simp only [if_neg h₁, if_neg h₂, if_neg h₃, if_pos h₄]
    by_cases h₅ : ((distinctBelow cutoff (r.events.map h.epoch)).length : ℤ) < i.nFolds + 1
    · simp only [if_neg h₁, if_neg h₂, if_neg h₃, if_neg h₄, if_pos h₅]
    · simp only [if_neg h₁, if_neg h₂, if_neg h₃, if_neg h₄, if_neg h₅]
      rfl

/-! ### One window -/

/-- Below the cutoff a window holds the same events of both recordings. -/
lemma chosen_eq (hf : (r.events.filter fun e => h.epoch e < cutoff) =
    r'.events.filter fun e => h.epoch e < cutoff) {w : EvalWindow}
    (hw : w.endTs.any (· ≤ cutoff) = true) :
    (r.events.filter fun e => w.holds (h.epoch e)) =
      r'.events.filter fun e => w.holds (h.epoch e) := by
  have hbelow : ∀ es : List ε, (es.filter fun e => w.holds (h.epoch e)) =
      (es.filter fun e => h.epoch e < cutoff).filter fun e => w.holds (h.epoch e) := by
    intro es
    rw [List.filter_filter]
    refine List.filter_congr fun e _ => ?_
    obtain ⟨stop, hstop, hle⟩ := (Option.any_eq_true _ _).mp hw
    rw [decide_eq_true_iff] at hle
    simp only [EvalWindow.holds, hstop, Option.all_some]
    by_cases he : h.epoch e < stop
    · simp [he, he.trans_le hle]
    · simp [he]
  rw [hbelow r.events, hf, ← hbelow]

lemma toOption_bind {ε α β : Type} (e : Except ε α) (f : α → Except ε β) :
    (e >>= f).toOption = e.toOption.bind fun a => (f a).toOption := by
  cases e <;> rfl

lemma evaluateWindow_alike (hf : (r.events.filter fun e => h.epoch e < cutoff) =
    r'.events.filter fun e => h.epoch e < cutoff) (settings : ρ) (params : CandidateParams deps)
    {w w' : EvalWindow} (hs : SameRange w w') (hw : w.endTs.any (· ≤ cutoff) = true) :
    (evaluateWindow h settings r params w).toOption =
      (evaluateWindow h settings r' params w').toOption := by
  obtain ⟨id, start, stop⟩ := w
  obtain ⟨id', start', stop'⟩ := w'
  obtain ⟨rfl, rfl⟩ : start = start' ∧ stop = stop' := hs
  have hchosen := chosen_eq hf hw
  have hid : (r'.events.filter fun e => EvalWindow.holds ⟨id', start, stop⟩ (h.epoch e)) =
      r'.events.filter fun e => EvalWindow.holds ⟨id, start, stop⟩ (h.epoch e) := rfl
  unfold evaluateWindow
  simp only [hid, ← hchosen]
  split_ifs <;> rfl

lemma foldTotal_alike (hf : (r.events.filter fun e => h.epoch e < cutoff) =
    r'.events.filter fun e => h.epoch e < cutoff) (settings : ρ) (params : CandidateParams deps)
    {ws ws' : List EvalWindow} (hs : List.Forall₂ SameRange ws ws') :
    (foldTotal h settings r cutoff params ws).toOption =
      (foldTotal h settings r' cutoff params ws').toOption := by
  induction hs with
  | nil => rfl
  | @cons w w' ws ws' hww _ ih =>
    have hstop : w'.endTs = w.endTs := hww.2.symm
    rw [foldTotal, foldTotal, hstop]
    by_cases hw : w.endTs.any (· ≤ cutoff) = true
    · simp only [hw, not_true, if_false]
      rw [toOption_bind, toOption_bind, evaluateWindow_alike hf settings params hww hw]
      simp only [toOption_bind, ih]
    · rw [if_pos hw, if_pos hw]
      rfl

lemma lift_alike {α : Type} {e e' : Except (SearchError χ) α} (he : e.toOption = e'.toOption) :
    Prog.Alike (lift e : Tune deps χ α) (lift e') := fun _ => ⟨he, rfl⟩

lemma tryCandidate_alike (hf : (r.events.filter fun e => h.epoch e < cutoff) =
    r'.events.filter fun e => h.epoch e < cutoff) (settings : ρ) {ws ws' : List EvalWindow}
    (hs : List.Forall₂ SameRange ws ws') (mapping : Overrides) :
    Prog.Alike (tryCandidate h settings r cutoff ws mapping)
      (tryCandidate h settings r' cutoff ws' mapping) := by
  unfold tryCandidate
  refine (Prog.Alike.refl _).bind fun _ => (Prog.Alike.refl _).bind fun params =>
    (Prog.Alike.refl _).bind fun paramsHash => (Prog.Alike.refl _).bind fun _ => ?_
  refine (lift_alike (foldTotal_alike hf settings params hs)).bind fun total => ?_
  rw [hs.length_eq]
  exact Prog.Alike.refl _

lemma tune_alike (hf : (r.events.filter fun e => h.epoch e < cutoff) =
    r'.events.filter fun e => h.epoch e < cutoff) (settings : ρ) {ws ws' : List EvalWindow}
    (hs : List.Forall₂ SameRange ws ws') (ms : List Overrides) :
    Prog.Alike (tune h settings r cutoff ws ms) (tune h settings r' cutoff ws' ms) := by
  induction ms with
  | nil => exact Prog.Alike.refl _
  | cons m ms ih => exact (tryCandidate_alike hf settings hs m).bind fun _ => ih

lemma windows_sameRange (r r' : Recording ε) (stamps : List ℚ) (n : ℕ) (cutoff : ℚ) :
    List.Forall₂ SameRange (windowsOf r stamps n cutoff).folds
      (windowsOf r' stamps n cutoff).folds := by
  rw [windowsOf, windowsOf, List.forall₂_map_left_iff, List.forall₂_map_right_iff,
    List.forall₂_same]
  exact fun _ _ => ⟨rfl, rfl⟩

lemma planCutoff_ok {stamps : List ℚ} (hp : planCutoff h i stamps = .ok cutoff) :
    cutoffTs (χ := χ) h.round stamps = .ok cutoff := by
  unfold planCutoff at hp
  rcases hc : cutoffTs (χ := χ) h.round stamps with e | c
  · rw [hc] at hp
    simp only [bind, Except.bind] at hp
    split_ifs at hp
  · rw [hc] at hp
    simp only [bind, Except.bind] at hp
    split_ifs at hp
    cases hp
    rfl

/-- **The search never peeks.** What the tuning leaves, and the trial file, are the same on two
recordings that agree below the cutoff. -/
theorem searchFolds_alike (ha : Agree h r r') (i : SearchInput ρ) :
    ((searchFolds h i r).1.toOption.map fun x => x.2.2) =
        ((searchFolds h i r').1.toOption.map fun x => x.2.2) ∧
      (searchFolds h i r).2 = (searchFolds h i r').2 := by
  unfold searchFolds
  rw [plan_eq ha.named, plan_eq ha.named', ← ha.stamps]
  rcases hp : planCutoff h i (r.stamps h) with e | cutoff
  · exact ⟨rfl, rfl⟩
  · have hf := ha.below cutoff (planCutoff_ok hp)
    simp only [Except.map, splitOf]
    rcases Trials.newLedger i.runId i.file with e | ledger
    · exact ⟨rfl, rfl⟩
    · obtain ⟨hv, hs⟩ := tune_alike hf i.settings
        (windows_sameRange r r' (r.stamps h) i.nFolds.toNat cutoff) (i.space.take i.nTrials.toNat)
        ⟨i.file, ledger, none⟩
      dsimp only
      generalize tune h i.settings r cutoff _ _ _ = m at hv hs ⊢
      generalize tune h i.settings r' cutoff _ _ _ = m' at hv hs ⊢
      obtain ⟨e | u, t⟩ := m <;> obtain ⟨e' | u', t'⟩ := m'
      · exact ⟨rfl, congrArg Tuning.file hs⟩
      · exact nomatch hv
      · exact nomatch hv
      · obtain rfl : t = t' := hs
        exact ⟨rfl, rfl⟩

end Agreement

/-! ### The first maximum -/

section FirstMaximum

variable {α β : Type} [LinearOrder β] {f : α → β} {l : List α} {a : α}

/-- What comes before is smaller, what comes after is not greater. -/
def FirstMax (f : α → β) (pre : List α) (a : α) (post : List α) : Prop :=
  (∀ b ∈ pre, f b < f a) ∧ ∀ b ∈ post, f b ≤ f a

lemma firstMax_of_argmax (h : a ∈ l.argmax f) : ∃ pre post, l = pre ++ a :: post ∧
    FirstMax f pre a post := by
  induction l using List.reverseRecOn generalizing a with
  | nil => simp at h
  | append_singleton l x ih =>
    rw [List.argmax_concat] at h
    rcases hl : l.argmax f with - | c
    · rw [hl] at h
      obtain rfl : x = a := by simpa using h
      rw [List.argmax_eq_none.mp hl]
      exact ⟨[], [], rfl, by simp [FirstMax]⟩
    · rw [hl] at h
      dsimp only at h
      split_ifs at h with hlt
      · obtain rfl : x = a := by simpa using h
        refine ⟨l, [], rfl, fun b hb => ?_, by simp⟩
        exact (List.le_of_mem_argmax hb hl).trans_lt hlt
      · obtain rfl : c = a := by simpa using h
        obtain ⟨pre, post, rfl, hpre, hpost⟩ := ih hl
        refine ⟨pre, post ++ [x], by simp, hpre, fun b hb => ?_⟩
        rcases List.mem_append.mp hb with hb | hb
        · exact hpost b hb
        · rw [List.mem_singleton.mp hb]
          exact not_lt.mp hlt

/-- Of two first maxima neither comes before the other. -/
lemma firstMax_length {pre pre' post post' : List α} {a' : α}
    (h : pre ++ a :: post = pre' ++ a' :: post') (hm : FirstMax f pre a post)
    (hm' : FirstMax f pre' a' post') : pre.length ≤ pre'.length := by
  by_contra hlt
  rw [not_le] at hlt
  have h₁ : (pre ++ a :: post)[pre'.length]? = some a' := by rw [h]; simp
  rw [List.getElem?_append_left hlt] at h₁
  have h₂ : (pre' ++ a' :: post')[pre.length]? = some a := by rw [← h]; simp
  rw [List.getElem?_append_right hlt.le, List.getElem?_cons, if_neg (by omega)] at h₂
  have hlow := hm.1 a' (List.mem_of_getElem? h₁)
  have hhigh := hm'.2 a (List.mem_of_getElem? h₂)
  exact absurd hlow (not_lt.mpr hhigh)

lemma argmax_of_firstMax {pre post : List α} (hl : l = pre ++ a :: post)
    (h : FirstMax f pre a post) : l.argmax f = some a := by
  rcases hm : l.argmax f with - | m
  · rw [List.argmax_eq_none.mp hm] at hl
    simp at hl
  · obtain ⟨pre', post', hl', hm'⟩ := firstMax_of_argmax hm
    have hsplit := hl.symm.trans hl'
    have hlen : pre.length = pre'.length :=
      le_antisymm (firstMax_length hsplit h hm') (firstMax_length hsplit.symm hm' h)
    obtain ⟨-, hcons⟩ := List.append_inj hsplit hlen
    rw [(List.cons.inj hcons).1]

variable {γ : Type} [LinearOrder γ] {φ : β → γ} {pre post : List α}

/-- A first maximum stays one under a coarser measure that ties nothing before it. -/
lemma FirstMax.coarsen (h : FirstMax f pre a post) (hφ : Monotone φ)
    (hne : ∀ b ∈ pre, φ (f b) ≠ φ (f a)) : FirstMax (fun x => φ (f x)) pre a post :=
  ⟨fun b hb => lt_of_le_of_ne (hφ (h.1 b hb).le) (hne b hb), fun b hb => hφ (h.2 b hb)⟩

/-- Where the coarser measure ties what comes before, its first maximum comes before too. -/
lemma FirstMax.mem_of_tie {pre' post' : List α} {a' b : α} (h : FirstMax f pre a post)
    (h' : FirstMax (fun x => φ (f x)) pre' a' post') (hφ : Monotone φ)
    (hl : pre ++ a :: post = pre' ++ a' :: post') (hb : b ∈ pre) (htie : φ (f b) = φ (f a)) :
    a' ∈ pre := by
  have hle : f a' ≤ f a := by
    have hmem : a' ∈ pre ++ a :: post := by
      rw [hl]
      exact List.mem_append_right _ List.mem_cons_self
    rcases List.mem_append.mp hmem with hpre | hrest
    · exact (h.1 a' hpre).le
    · rcases List.mem_cons.mp hrest with rfl | hpost
      · exact le_rfl
      · exact h.2 a' hpost
  have hnot : b ∉ pre' := by
    intro hmem
    have hlt : φ (f b) < φ (f a') := h'.1 b hmem
    exact absurd (hφ hle) (not_le.mpr (htie ▸ hlt))
  rcases List.append_eq_append_iff.mp hl with ⟨as, rfl, -⟩ | ⟨bs, rfl, hbs⟩
  · exact absurd (List.mem_append_left as hb) hnot
  · rcases bs with - | ⟨c, bs⟩
    · exact absurd (by simpa using hb) hnot
    · obtain rfl : a' = c := (List.cons.inj hbs).1
      simp

end FirstMaximum

/-! ### What the loop keeps -/

/-- A candidate with its total over the folds. -/
structure Scored (deps : CandidateDeps) where
  paramsHash : Hash
  params : CandidateParams deps
  total : ℤ

def Scored.toBest (folds : ℕ) (s : Scored deps) : Best deps :=
  ⟨s.paramsHash, s.params, s.total / (folds : ℤ)⟩

def scoreOf (h : Harness deps ε ρ χ) (settings : ρ) (r : Recording ε) (cutoff : ℚ)
    (folds : List EvalWindow) (mapping : Overrides) : Option (Scored deps) := do
  let params ← candidateFrom deps mapping
  let paramsHash ← contentHash params
  let total ← (foldTotal h settings r cutoff params folds).toOption
  some ⟨paramsHash, params, total⟩

section Loop

variable {h : Harness deps ε ρ χ} {settings : ρ} {r : Recording ε} {cutoff : ℚ}
  {folds : List EvalWindow} {t t' : Tuning deps}

lemma lift_ok {α : Type} {e : Except (SearchError χ) α} {a : α} (h : lift e t = (.ok a, t')) :
    e = .ok a ∧ t' = t := ⟨congrArg Prod.fst h, (congrArg Prod.snd h).symm⟩

lemma orRaise_ok {α : Type} {e : SearchError χ} {o : Option α} {a : α}
    (h : orRaise e o = .ok a) : o = some a := by
  cases o with
  | none => exact nomatch h
  | some b => rw [Except.ok.inj h]

/-- What is kept depends on what was kept alone. -/
lemma keepBetter_best (b : Best deps) (t : Tuning deps) :
    (keepBetter b t).best =
      match t.best with
      | none => some b
      | some c => if c.mean < b.mean then some b else some c := by
  unfold keepBetter
  rcases hb : t.best with - | c
  · rfl
  · dsimp only
    split_ifs with hc
    · rfl
    · exact hb

lemma keepBetter_file (b : Best deps) (t : Tuning deps) : (keepBetter b t).file = t.file := by
  unfold keepBetter
  rcases t.best with - | c
  · rfl
  · dsimp only
    split_ifs <;> rfl

lemma recordTrial_best {paramsHash : Hash} {u : Unit}
    (hr : recordTrial (χ := χ) paramsHash t = (.ok u, t')) : t'.best = t.best := by
  have h := congrArg (fun x => x.2.best) hr
  exact h.symm

lemma tryCandidate_ok {mapping : Overrides} {u : Unit}
    (hr : tryCandidate h settings r cutoff folds mapping t = (.ok u, t')) :
    ∃ s, scoreOf h settings r cutoff folds mapping = some s ∧
      t'.best = (keepBetter (s.toBest folds.length) t).best := by
  unfold tryCandidate at hr
  obtain ⟨_, t₁, h₁, hr⟩ := Prog.bind_ok_iff.mp hr
  obtain ⟨params, t₂, h₂, hr⟩ := Prog.bind_ok_iff.mp hr
  obtain ⟨paramsHash, t₃, h₃, hr⟩ := Prog.bind_ok_iff.mp hr
  obtain ⟨_, t₄, h₄, hr⟩ := Prog.bind_ok_iff.mp hr
  obtain ⟨total, t₅, h₅, hr⟩ := Prog.bind_ok_iff.mp hr
  obtain ⟨-, rfl⟩ := lift_ok h₁
  obtain ⟨hp, rfl⟩ := lift_ok h₂
  obtain ⟨hh, rfl⟩ := lift_ok h₃
  obtain ⟨ht, rfl⟩ := lift_ok h₅
  refine ⟨⟨paramsHash, params, total⟩, ?_, ?_⟩
  · simp only [scoreOf, orRaise_ok hp, orRaise_ok hh, ht, Except.toOption, bind, Option.bind]
  · rw [ht] at hr
    obtain rfl : keepBetter ⟨paramsHash, params, total / (folds.length : ℤ)⟩ t₅ = t' :=
      congrArg (fun x => x.2) hr
    rw [keepBetter_best, keepBetter_best, recordTrial_best h₄]
    rfl

/-- The candidates that were scored, taken in order. -/
def keepAll (n : ℕ) (ss : List (Scored deps)) (t : Tuning deps) : Tuning deps :=
  ss.foldl (fun t s => keepBetter (s.toBest n) t) t

lemma keepAll_congr (n : ℕ) (ss : List (Scored deps)) (ht : t.best = t'.best) :
    (keepAll n ss t).best = (keepAll n ss t').best := by
  induction ss generalizing t t' with
  | nil => exact ht
  | cons s ss ih =>
    refine ih ?_
    rw [keepBetter_best, keepBetter_best, ht]

/-- The loop keeps the first candidate of maximal mean. -/
lemma keepAll_best (n : ℕ) (ss : List (Scored deps)) (ht : t.best = none) :
    (keepAll n ss t).best = (ss.argmax fun s => s.total / (n : ℤ)).map (Scored.toBest n) := by
  induction ss using List.reverseRecOn with
  | nil => exact ht
  | append_singleton ss s ih =>
    have hstep : keepAll n (ss ++ [s]) t = keepBetter (s.toBest n) (keepAll n ss t) := by
      simp [keepAll]
    rw [hstep, keepBetter_best, ih, List.argmax_concat]
    generalize ss.argmax (fun s => s.total / (n : ℤ)) = m
    cases m with
    | none => rfl
    | some m =>
      by_cases hlt : m.total / (n : ℤ) < s.total / (n : ℤ)
      · have hbest : (m.toBest n).mean < (s.toBest n).mean := hlt
        simp only [Option.map_some, if_pos hlt, if_pos hbest]
      · have hbest : ¬ (m.toBest n).mean < (s.toBest n).mean := hlt
        simp only [Option.map_some, if_neg hlt, if_neg hbest]

lemma tune_ok {ms : List Overrides} {u : Unit}
    (hr : tune h settings r cutoff folds ms t = (.ok u, t')) :
    ∃ ss, ms.mapM (scoreOf h settings r cutoff folds) = some ss ∧
      t'.best = (keepAll folds.length ss t).best := by
  induction ms generalizing t with
  | nil =>
    obtain rfl : t = t' := congrArg (fun x => x.2) hr
    exact ⟨[], rfl, rfl⟩
  | cons m ms ih =>
    rw [tune] at hr
    obtain ⟨_, t₁, h₁, hr⟩ := Prog.bind_ok_iff.mp hr
    obtain ⟨s, hs, hbest⟩ := tryCandidate_ok h₁
    obtain ⟨ss, hss, hrest⟩ := ih hr
    refine ⟨s :: ss, by simp [List.mapM_cons, hs, hss], hrest.trans ?_⟩
    exact keepAll_congr _ ss hbest

/-- The total is a function of the candidate. -/
lemma scoreOf_total {mapping : Overrides} {s : Scored deps}
    (hs : scoreOf h settings r cutoff folds mapping = some s) :
    (foldTotal h settings r cutoff s.params folds).toOption = some s.total := by
  unfold scoreOf at hs
  obtain ⟨params, -, hs⟩ := Option.bind_eq_some_iff.mp hs
  obtain ⟨paramsHash, -, hs⟩ := Option.bind_eq_some_iff.mp hs
  obtain ⟨total, ht, hs⟩ := Option.bind_eq_some_iff.mp hs
  cases hs
  exact ht

lemma scores_total {ms : List Overrides} {ss : List (Scored deps)}
    (hss : ms.mapM (scoreOf h settings r cutoff folds) = some ss) :
    ∀ s ∈ ss, (foldTotal h settings r cutoff s.params folds).toOption = some s.total := by
  induction ms generalizing ss with
  | nil =>
    obtain rfl : [] = ss := by simpa using hss
    simp
  | cons m ms ih =>
    rw [List.mapM_cons] at hss
    obtain ⟨s, hs, hss⟩ := Option.bind_eq_some_iff.mp hss
    obtain ⟨ss', hss', hss⟩ := Option.bind_eq_some_iff.mp hss
    cases hss
    intro u hu
    rcases List.mem_cons.mp hu with rfl | hu
    · exact scoreOf_total hs
    · exact ih hss' u hu

lemma isHash_ne_nil {t : Text} (h : isHash t = true) : t ≠ [] := by
  rintro rfl
  exact absurd h (by decide)

/-- **The loop ends.** While the trial file has room, candidates that can be scored all are. -/
theorem tune_complete {vs : List Trials.TrialVerdict} (hv : Trials.Holds t.file vs)
    {ms : List Overrides} {ss : List (Scored deps)}
    (hjson : ∀ m ∈ ms, (CanonicalJson.canonicalJson m).toOption.isSome)
    (hss : ms.mapM (scoreOf h settings r cutoff folds) = some ss)
    (hroom : vs.length + ms.length ≤ Trials.maxAllowedTrials) :
    ∃ t', tune h settings r cutoff folds ms t = (.ok (), t') := by
  induction ms generalizing t vs ss with
  | nil => exact ⟨t, rfl⟩
  | cons m ms ih =>
    rw [List.mapM_cons] at hss
    obtain ⟨s, hs, hss⟩ := Option.bind_eq_some_iff.mp hss
    obtain ⟨ss', hss', -⟩ := Option.bind_eq_some_iff.mp hss
    obtain ⟨params, hp, hs⟩ := Option.bind_eq_some_iff.mp hs
    obtain ⟨paramsHash, hh, hs⟩ := Option.bind_eq_some_iff.mp hs
    obtain ⟨total, ht, -⟩ := Option.bind_eq_some_iff.mp hs
    rw [List.length_cons] at hroom
    obtain ⟨v, l', hrec, -, -, hv'⟩ := Trials.recordTrial_room hv t.ledger
      (isHash_ne_nil (contentHash_hex hh)) (by omega)
    obtain ⟨text, hm⟩ : ∃ text, CanonicalJson.canonicalJson m = .ok text := by
      have hsome := hjson m List.mem_cons_self
      rcases hm : CanonicalJson.canonicalJson m with e | text
      · rw [hm] at hsome
        exact nomatch hsome
      · exact ⟨text, rfl⟩
    have htotal : foldTotal h settings r cutoff params folds = .ok total := by
      rcases hf : foldTotal h settings r cutoff params folds with e | n
      · rw [hf] at ht
        exact nomatch ht
      · rw [hf] at ht
        rw [Option.some.inj ht]
    have hone : tryCandidate h settings r cutoff folds m t = (.ok (),
        keepBetter ⟨paramsHash, params, total / (folds.length : ℤ)⟩
          { t with file := some (Trials.written (vs ++ [v])), ledger := l' }) := by
      have hrecord : recordTrial (χ := χ) paramsHash t = (.ok (),
          { t with file := some (Trials.written (vs ++ [v])), ledger := l' }) := by
        simp only [recordTrial, hrec]
        rfl
      have hstable : lift (χ := χ) ((CanonicalJson.canonicalJson m).mapError .notStable) t =
          (.ok text, t) := by rw [hm]; rfl
      have hvalid : lift (χ := χ) (orRaise .invalidCandidate (candidateFrom deps m)) t =
          (.ok params, t) := by rw [hp]; rfl
      have hhash : lift (χ := χ) (orRaise .unhashable (contentHash params)) t =
          (.ok paramsHash, t) := by rw [hh]; rfl
      have hfolds (t : Tuning deps) : lift (foldTotal h settings r cutoff params folds) t =
          (.ok total, t) := by rw [htotal]; rfl
      unfold tryCandidate
      rw [Prog.bind_run_ok hstable, Prog.bind_run_ok hvalid, Prog.bind_run_ok hhash,
        Prog.bind_run_ok hrecord, Prog.bind_run_ok (hfolds _)]
      rfl
    obtain ⟨t', htune⟩ := ih (t := keepBetter ⟨paramsHash, params, total / (folds.length : ℤ)⟩
      { t with file := some (Trials.written (vs ++ [v])), ledger := l' })
      (by rw [keepBetter_file]; exact hv')
      (fun m' hm' => hjson m' (List.mem_cons_of_mem _ hm')) hss'
      (by rw [List.length_append, List.length_singleton]; omega)
    rw [tune, Prog.bind_run_ok hone]
    exact ⟨t', htune⟩

end Loop

/-! ### What a search selects -/

section Selection

variable {h : Harness deps ε ρ χ} {i : SearchInput ρ} {r r' : Recording ε}

/-- The candidates taken, in space order, with their totals over the folds. -/
def scores (h : Harness deps ε ρ χ) (i : SearchInput ρ) (r : Recording ε) :
    Option (List (Scored deps)) :=
  match plan h i r with
  | .error _ => none
  | .ok (split, windows) =>
    (i.space.take i.nTrials.toNat).mapM
      (scoreOf h i.settings r split.holdoutStartTs windows.folds)

/-- What the tuning leaves, where no step of it raises. -/
def tuned (h : Harness deps ε ρ χ) (i : SearchInput ρ) (r : Recording ε) : Option (Tuning deps) :=
  (searchFolds h i r).1.toOption.map fun x => x.2.2

/-- Nothing above the cutoff is read before the winner is known, and the winner is the first
candidate of maximal total. -/
structure Selects (h : Harness deps ε ρ χ) (i : SearchInput ρ) (r : Recording ε) : Prop where
  winner : ∀ r', Agree h r r' → tuned h i r' = tuned h i r
  trials : ∀ r', Agree h r r' → (runSearch h i r').2 = (runSearch h i r).2
  results : ∀ r' a b, Agree h r r' → (runSearch h i r).1 = .ok a → (runSearch h i r').1 = .ok b →
    b.bestParamsHash = a.bestParamsHash ∧ b.bestNetLamports = a.bestNetLamports ∧
      b.trialCount = a.trialCount ∧ b.eligibleForPromotion = a.eligibleForPromotion
  first : ∀ t, tuned h i r = some t → ∃ ss, scores h i r = some ss ∧
    t.best = (ss.argmax Scored.total).map (Scored.toBest i.nFolds.toNat)

/-- No candidate before the first of maximal total has its total rounded down to a fold. -/
def NoEarlyTie (h : Harness deps ε ρ χ) (i : SearchInput ρ) (r : Recording ε) : Prop :=
  ∀ pre s post, scores h i r = some (pre ++ s :: post) → FirstMax Scored.total pre s post →
    ∀ a ∈ pre, a.total / (i.nFolds.toNat : ℤ) ≠ s.total / (i.nFolds.toNat : ℤ)

lemma plan_folds {x : HoldoutSplit × FoldWindows} (hp : plan h i r = .ok x) :
    x.2.folds.length = i.nFolds.toNat := by
  have hn : r.dataset ≠ [] := by
    intro hn
    simp [plan, requireDataset, hn, bind, Except.bind] at hp
  rw [plan_eq hn] at hp
  obtain ⟨cutoff, rfl⟩ : ∃ cutoff, (splitOf r (r.stamps h) cutoff,
      windowsOf r (r.stamps h) i.nFolds.toNat cutoff) = x := by
    rcases hc : planCutoff h i (r.stamps h) with e | cutoff
    · rw [hc] at hp
      exact nomatch hp
    · rw [hc] at hp
      exact ⟨cutoff, Except.ok.inj hp⟩
  simp [windowsOf]

/-- The tuning keeps the first candidate of maximal mean. -/
lemma tuned_best {t : Tuning deps} (ht : tuned h i r = some t) :
    ∃ ss, scores h i r = some ss ∧
      t.best = (ss.argmax fun s => s.total / (i.nFolds.toNat : ℤ)).map
        (Scored.toBest i.nFolds.toNat) := by
  obtain ⟨⟨split, windows, t'⟩, hx, rfl⟩ := Option.map_eq_some_iff.mp ht
  unfold searchFolds at hx
  unfold scores
  rcases hp : plan h i r with e | ⟨split', windows'⟩
  · rw [hp] at hx
    exact nomatch hx
  · rw [hp] at hx
    have hlen := plan_folds hp
    dsimp only at hx hlen ⊢
    rcases hl : Trials.newLedger i.runId i.file with e | ledger
    · rw [hl] at hx
      exact nomatch hx
    · rw [hl] at hx
      dsimp only at hx
      rcases hr : tune h i.settings r split'.holdoutStartTs windows'.folds
          (i.space.take i.nTrials.toNat) ⟨i.file, ledger, none⟩ with ⟨e | u, t₁⟩
      · rw [hr] at hx
        exact nomatch hx
      · rw [hr] at hx
        cases hx
        obtain ⟨ss, hss, hbest⟩ := tune_ok hr
        refine ⟨ss, hss, hbest.trans ?_⟩
        rw [hlen]
        exact keepAll_best _ ss rfl

lemma runSearch_file : (runSearch h i r).2 = (searchFolds h i r).2 := by
  unfold runSearch
  rcases searchFolds h i r with ⟨e | ⟨split, windows, t⟩, file⟩
  · rfl
  · dsimp only
    rcases t.best with - | b
    · rfl
    · dsimp only
      rcases evaluateWindow h i.settings r b.params windows.holdout with e | net
      · rfl
      · dsimp only
        split_ifs <;> rfl

/-- A result tells what the tuning left. -/
lemma runSearch_ok {a : HarnessResult} (hr : (runSearch h i r).1 = .ok a) :
    ∃ t b, tuned h i r = some t ∧ t.best = some b ∧ a.bestParamsHash = b.paramsHash ∧
      a.bestNetLamports = b.mean ∧ a.trialCount = t.ledger.trials.length ∧
      a.eligibleForPromotion = t.ledger.trials.all (·.eligibleForPromotion) := by
  unfold runSearch at hr
  unfold tuned
  rcases hs : searchFolds h i r with ⟨e | ⟨split, windows, t⟩, file⟩
  · rw [hs] at hr
    exact nomatch hr
  · rw [hs] at hr
    dsimp only at hr
    rcases hb : t.best with - | b
    · rw [hb] at hr
      exact nomatch hr
    · rw [hb] at hr
      dsimp only at hr
      rcases hnet : evaluateWindow h i.settings r b.params windows.holdout with e | net
      · rw [hnet] at hr
        exact nomatch hr
      · rw [hnet] at hr
        dsimp only at hr
        split_ifs at hr
        cases hr
        exact ⟨t, b, rfl, hb, rfl, rfl, rfl, rfl⟩

lemma results_alike (ht : tuned h i r' = tuned h i r) {a b : HarnessResult}
    (ha : (runSearch h i r).1 = .ok a) (hb : (runSearch h i r').1 = .ok b) :
    b.bestParamsHash = a.bestParamsHash ∧ b.bestNetLamports = a.bestNetLamports ∧
      b.trialCount = a.trialCount ∧ b.eligibleForPromotion = a.eligibleForPromotion := by
  obtain ⟨t, c, htuned, hc, ha₁, ha₂, ha₃, ha₄⟩ := runSearch_ok ha
  obtain ⟨t', c', htuned', hc', hb₁, hb₂, hb₃, hb₄⟩ := runSearch_ok hb
  obtain rfl : t' = t := Option.some.inj (htuned'.symm.trans (ht.trans htuned))
  obtain rfl : c' = c := Option.some.inj (hc'.symm.trans hc)
  exact ⟨hb₁.trans ha₁.symm, hb₂.trans ha₂.symm, hb₃.trans ha₃.symm, hb₄.trans ha₄.symm⟩

lemma scores_params {ss : List (Scored deps)} (hss : scores h i r = some ss) {s u : Scored deps}
    (hs : s ∈ ss) (hu : u ∈ ss) (hp : s.params = u.params) : s.total = u.total := by
  unfold scores at hss
  rcases hplan : plan h i r with e | ⟨split, windows⟩
  · rw [hplan] at hss
    exact nomatch hss
  · rw [hplan] at hss
    have hs := scores_total hss s hs
    have hu := scores_total hss u hu
    rw [hp, hu] at hs
    exact (Option.some.inj hs).symm

lemma mean_mono (n : ℕ) : Monotone fun x : ℤ => x / (n : ℤ) := by
  intro x y hxy
  rcases Nat.eq_zero_or_pos n with rfl | hn
  · simp
  · exact Int.ediv_le_ediv (Int.natCast_pos.mpr hn) hxy

/-- A search that takes the first of maximal total had no tie before it. -/
lemma Selects.noEarlyTie (hsel : Selects h i r) (hsome : (tuned h i r).isSome) :
    NoEarlyTie h i r := by
  intro pre s post hss hfirst a ha htie
  obtain ⟨t, ht⟩ := Option.isSome_iff_exists.mp hsome
  obtain ⟨ss, hss', hexact⟩ := hsel.first t ht
  obtain ⟨ss', hss'', hmean⟩ := tuned_best ht
  obtain rfl : pre ++ s :: post = ss := Option.some.inj (hss.symm.trans hss')
  obtain rfl : pre ++ s :: post = ss' := Option.some.inj (hss.symm.trans hss'')
  rw [argmax_of_firstMax rfl hfirst] at hexact
  rw [hexact] at hmean
  obtain ⟨m, hm, hsame⟩ := Option.map_eq_some_iff.mp hmean.symm
  obtain ⟨pre', post', hsplit, hfirst'⟩ := firstMax_of_argmax hm
  have hmem : m ∈ pre := hfirst.mem_of_tie hfirst' (mean_mono i.nFolds.toNat) hsplit ha htie
  have htotal : m.total = s.total :=
    scores_params hss (List.mem_append_left _ hmem) (by simp) (congrArg Best.params hsame)
  exact absurd (hfirst.1 m hmem) (by rw [htotal]; exact lt_irrefl _)

/-- On a fresh trial file a search of at most fifty candidates tunes to the end. -/
theorem tuned_complete (hrun : i.runId ≠ []) (hfile : i.file = none)
    (hjson : ∀ m ∈ i.space, (CanonicalJson.canonicalJson m).toOption.isSome)
    (hscores : (scores h i r).isSome) (hroom : i.nTrials ≤ Trials.maxAllowedTrials) :
    (tuned h i r).isSome := by
  obtain ⟨ss, hss⟩ := Option.isSome_iff_exists.mp hscores
  unfold scores at hss
  rcases hp : plan h i r with e | ⟨split, windows⟩
  · rw [hp] at hss
    exact nomatch hss
  · rw [hp] at hss
    have hl : Trials.newLedger i.runId i.file = .ok ⟨i.runId, []⟩ := by
      rw [Trials.newLedger, if_neg hrun, hfile]
      rfl
    have hlen : (i.space.take i.nTrials.toNat).length ≤ Trials.maxAllowedTrials := by
      rw [List.length_take]
      omega
    have hfresh : Trials.Holds i.file [] := by
      rw [hfile]
      exact ⟨rfl, trivial, Nat.zero_le _⟩
    obtain ⟨t, ht⟩ := tune_complete (t := ⟨i.file, ⟨i.runId, []⟩, none⟩) hfresh
      (fun m hm => hjson m (List.mem_of_mem_take hm)) hss (by simpa using hlen)
    rw [tuned, searchFolds, hp, hl]
    dsimp only
    rw [ht]
    rfl

/-- **The selection.** It never peeks; and it takes the first candidate of maximal total exactly
when the rounding of the means ties no earlier candidate with that one. -/
theorem search_selects_iff (h : Harness deps ε ρ χ) (i : SearchInput ρ) (r : Recording ε) :
    Selects h i r ↔ ((tuned h i r).isSome → NoEarlyTie h i r) := by
  have hmono := mean_mono i.nFolds.toNat
  constructor
  · exact fun hsel hsome => hsel.noEarlyTie hsome
  · intro hcond
    have hwinner : ∀ r', Agree h r r' → tuned h i r' = tuned h i r := fun r' ha =>
      (searchFolds_alike ha i).1.symm
    refine ⟨hwinner, fun r' ha => ?_, fun r' a b ha => results_alike (hwinner r' ha), ?_⟩
    · rw [runSearch_file, runSearch_file]
      exact (searchFolds_alike ha i).2.symm
    · intro t ht
      obtain ⟨ss, hss, hbest⟩ := tuned_best ht
      refine ⟨ss, hss, hbest.trans ?_⟩
      rcases hm : ss.argmax Scored.total with - | s
      · rw [List.argmax_eq_none.mp hm]
        rfl
      · obtain ⟨pre, post, rfl, hfirst⟩ := firstMax_of_argmax hm
        have hne := hcond (by simp [ht]) pre s post hss hfirst
        rw [argmax_of_firstMax rfl (hfirst.coarsen hmono hne)]

end Selection

namespace Sample

/-- The digest of two texts. -/
def digest : CandidateDeps where
  accepts _ _ _ := true
  sha256 t :=
    if t = "\x7b\"exits\":\x7b\x7d,\"filter\":\x7b\x7d\x7d".toList then
      "d6c9cd2aa6bebb78a249d6fe42fc519d46ac85bcf4af10f96438b054a2990c93".toList
    else "ef3835ba6ca1497a508b2035481cd5fb76d156e38a7d2be766dc2dabc558e235".toList
  sha256_hex t := by
    split_ifs
    · decide
    · decide

def minBuyers : Overrides := [("min_unique_buyers".toList, .num 5)]

def plain : CandidateParams digest := ⟨none, none, by decide, by decide⟩

def strict : CandidateParams digest := ⟨some minBuyers, none, by decide, by decide⟩

/-- A window nets one lamport, and two with the sixth event under a stricter filter. -/
def harness : Harness digest ℚ Unit Unit where
  round x := x
  epoch x := x
  replay _ chosen p := .ok (if p.filter.isSome && chosen.contains 6 then 2 else 1)

def recording : Recording ℚ := ⟨"d".toList, [0, 1, 2, 3, 4, 5, 6, 7, 8, 9]⟩

/-- Two candidates over three folds: `{}` and `{"filter": {"min_unique_buyers": 5}}`. -/
def input : SearchInput Unit where
  settings := ()
  space := [[], [("filter".toList, .obj minBuyers)]]
  nTrials := 2
  nFolds := 3
  runId := "run".toList
  file := none

def cutoff : ℚ := 9 - holdoutFraction * 9

lemma plan_recording : plan harness input recording = .ok
    (splitOf recording (recording.stamps harness) cutoff,
      windowsOf recording (recording.stamps harness) 3 cutoff) := by
  have hc : (planCutoff harness input (recording.stamps harness)).toOption = some cutoff := by
    decide +kernel
  rw [plan_eq (by decide)]
  rcases hp : planCutoff harness input (recording.stamps harness) with e | c
  · rw [hp] at hc
    exact nomatch hc
  · rw [hp] at hc
    obtain rfl : c = cutoff := Option.some.inj hc
    rfl

/-- The totals are three and four. -/
lemma scores_recording : ∃ a b, scores harness input recording =
    some [⟨a, plain, 3⟩, ⟨b, strict, 4⟩] := by
  have hplain : (foldTotal harness () recording cutoff plain
      (windowsOf recording (recording.stamps harness) 3 cutoff).folds).toOption = some 3 := by
    decide +kernel
  have hstrict : (foldTotal harness () recording cutoff strict
      (windowsOf recording (recording.stamps harness) 3 cutoff).folds).toOption = some 4 := by
    decide +kernel
  have hnone : normalizedMapping none = some [] := rfl
  have hsome : normalizedMapping (some minBuyers) = some minBuyers := rfl
  obtain ⟨a, ha⟩ : ∃ a, contentHash plain = some a :=
    ⟨_, congrArg (Option.map digest.sha256) (contentText_eq hnone hnone)⟩
  obtain ⟨b, hb⟩ : ∃ b, contentHash strict = some b :=
    ⟨_, congrArg (Option.map digest.sha256) (contentText_eq hnone hsome)⟩
  refine ⟨a, b, ?_⟩
  have hfirst : candidateFrom digest [] = some plain := rfl
  have hsecond : candidateFrom digest [("filter".toList, .obj minBuyers)] = some strict := rfl
  rw [scores, plan_recording]
  show List.mapM (scoreOf harness () recording cutoff _) [[], [("filter".toList, _)]] = _
  rw [List.mapM_cons, List.mapM_cons, List.mapM_nil, scoreOf, scoreOf, hfirst, hsecond]
  simp only [Option.bind_eq_bind, Option.bind_some, ha, hb, hplain, hstrict]
  rfl

end Sample

/-- A total of three is kept over a later one of four, as both round down to one a fold. -/
theorem smaller_total_kept : ¬ Selects Sample.harness Sample.input Sample.recording := by
  intro hsel
  obtain ⟨a, b, hss⟩ := Sample.scores_recording
  have hjson : ∀ m ∈ Sample.input.space, (CanonicalJson.canonicalJson m).toOption.isSome := by
    decide
  have hsome := tuned_complete (h := Sample.harness) (i := Sample.input) (r := Sample.recording)
    (by decide) rfl hjson (by rw [hss]; rfl) (by decide)
  have htie := hsel.noEarlyTie hsome [⟨a, Sample.plain, 3⟩] ⟨b, Sample.strict, 4⟩ [] hss
    ⟨by simp, by simp⟩ _ List.mem_cons_self
  exact htie rfl

end Backtest

end PumpGrok
