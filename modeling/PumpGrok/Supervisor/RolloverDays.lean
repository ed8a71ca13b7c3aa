import PumpGrok.Supervisor.Rollover

/-!
The days of the rollover rows. The supervisor compares the day of the clock with the last day it
saw by equality, and the key keeps a day from being written twice; nothing keeps a clock that was
set back from opening a day that is over.
-/

namespace PumpGrok

def Payload.rolloverDay : Payload → Option ℤ
  | .dailyRollover p => some p.dayUtc
  | _ => none

/-- The days of the rollover rows of a ledger, in order. -/
def rolloverDays (es : List Event) : List ℤ := es.filterMap fun e => e.payload.rolloverDay

/-- One rollover a day, none for a day before one that is there, each with the equity of the rows
before it. -/
structure OnceADay (genesis : LedgerState) (es : List Event) : Prop where
  once : (rolloverDays es).Nodup
  forward : (rolloverDays es).Pairwise (· ≤ ·)
  baseline : Priced genesis es

lemma rolloverDay_none {p : Payload} (h : p.isRollover = false) : p.rolloverDay = none := by
  cases p <;> first | rfl | cases h

lemma rolloverDays_append (es fs : List Event) :
    rolloverDays (es ++ fs) = rolloverDays es ++ rolloverDays fs := List.filterMap_append

lemma rolloverDays_aside {fs : List Event} (h : ∀ e ∈ fs, e.payload.isRollover = false) :
    rolloverDays fs = [] :=
  List.filterMap_eq_nil_iff.mpr fun e he => rolloverDay_none (h e he)

namespace TickDesk

/-- A ledger with or without the equity it began with. -/
def opened (metaEquity : Option ℤ) (budgetEquity : ℤ) : TickDesk where
  store := { initialEquity := metaEquity }
  budgetEquityLamports := budgetEquity

/-- The supervisor has not settled the day, and the store takes its row. -/
def Rolls (s : TickDesk) (now : ℤ) : Prop :=
  s.lastRolloverDay ≠ some (utcDay now) ∧ s.store.inconsistent = false ∧
    s.store.byKey (.rollover (utcDay now)) = none

instance (s : TickDesk) (now : ℤ) : Decidable (s.Rolls now) := inferInstanceAs (Decidable (_ ∧ _))

/-- A tick whose day gets its row now is on no day before one that has a row. -/
def Ahead (s : TickDesk) : TickAction → Prop
  | .beginTick _ now => s.Rolls now → ∀ d ∈ rolloverDays s.store.read, d ≤ utcDay now
  | _ => True

variable {s : TickDesk}

/-! ### One step -/

lemma emitRollover_rolls {source : EventSource} {now : ℤ} (h : s.Rolls now) :
    (s.emitRollover source now).store = s.store.commit [s.rolloverRow source now] := by
  obtain ⟨hday, hok, hkey⟩ := h
  have happend : LedgerStore.append (s.rolloverRow source now) s.store =
      (.ok { s.rolloverRow source now with seq := s.store.count + 1 },
        s.store.commit [s.rolloverRow source now]) :=
    LedgerStore.append_ok_iff.mpr ⟨hok, LedgerStore.fresh_singleton.mpr hkey, rfl, rfl⟩
  unfold emitRollover
  rw [if_neg hday, happend]

lemma emitRollover_settled {source : EventSource} {now : ℤ} (h : ¬ s.Rolls now) :
    (s.emitRollover source now).store = s.store := by
  unfold emitRollover
  split_ifs with hday
  · rfl
  · rcases happend : LedgerStore.append (s.rolloverRow source now) s.store with ⟨x | e, st⟩
    · obtain ⟨rfl, -⟩ := LedgerStore.append_error_iff.mp happend
      cases x <;> rfl
    · obtain ⟨hok, hfresh, -⟩ := LedgerStore.append_ok_iff.mp happend
      exact absurd ⟨hday, hok, LedgerStore.fresh_singleton.mp hfresh⟩ h

/-- **What a step appends**: the rollover of a day, or rows that are none. -/
lemma step_read (a : TickAction) :
    (∃ source now, a = .beginTick source now ∧ s.Rolls now ∧
      (s.step a).store.read = s.store.read ++ [{ s.rolloverRow source now with
        seq := s.store.count + 1 }]) ∨
    ((∀ source now, a = .beginTick source now → ¬ s.Rolls now) ∧
      ∃ fs, (∀ e ∈ fs, e.payload.isRollover = false) ∧
        (s.step a).store.read = s.store.read ++ fs) := by
  cases a with
  | beginTick source now =>
    by_cases hr : s.Rolls now
    · refine .inl ⟨source, now, rfl, hr, ?_⟩
      rw [step, emitRollover_rolls hr, LedgerStore.read_commit]
      rfl
    · refine .inr ⟨?_, [], by simp, ?_⟩
      · rintro source' now' ⟨rfl, rfl⟩
        exact hr
      · rw [step, emitRollover_settled hr, List.append_nil]
  | write rows h =>
    refine .inr ⟨by simp, ?_⟩
    rw [step]
    rcases happend : LedgerStore.appendBatch rows s.store with ⟨x | es, st⟩
    · obtain ⟨-, rfl, -⟩ := LedgerStore.appendBatch_error_iff.mp happend
      exact ⟨[], by simp, (List.append_nil _).symm⟩
    · obtain ⟨-, -, rfl⟩ | ⟨-, -, -, -, rfl⟩ := LedgerStore.appendBatch_ok_iff.mp happend
      · exact ⟨[], by simp, (List.append_nil _).symm⟩
      · refine ⟨LedgerStore.stamp (s.store.count + 1) rows, fun e he => ?_,
          LedgerStore.read_commit _ _⟩
        have hmem : e.payload ∈ (LedgerStore.stamp (s.store.count + 1) rows).map (·.payload) :=
          List.mem_map_of_mem he
        rw [LedgerStore.stamp_payloads] at hmem
        obtain ⟨r, hr, heq⟩ := List.mem_map.mp hmem
        rw [← heq]
        exact h r hr
  | verify intact =>
    refine .inr ⟨by simp, [], by simp, ?_⟩
    rw [List.append_nil]
    cases intact <;> rfl
  | restart => exact .inr ⟨by simp, [], by simp, (List.append_nil _).symm⟩

lemma step_initial (a : TickAction) : (s.step a).initialEquity = s.initialEquity := by
  have hemit : ∀ source now, (s.emitRollover source now).budgetEquityLamports =
      s.budgetEquityLamports := by
    intro source now
    unfold emitRollover
    split_ifs
    · rfl
    · split <;> rfl
  cases a with
  | beginTick source now =>
    by_cases hr : s.Rolls now
    · rw [step, initialEquity, initialEquity, hemit, emitRollover_rolls hr]
      rfl
    · rw [step, initialEquity, initialEquity, hemit, emitRollover_settled hr]
  | write rows h =>
    have hgrows : s.store.Grows (fun _ _ => True) (LedgerStore.appendBatch rows s.store).2 :=
      LedgerStore.grows_appendBatch fun _ => trivial
    rw [step, initialEquity, initialEquity, hgrows.initialEquity_eq]
  | verify intact => cases intact <;> rfl
  | restart => rfl

/-! ### Runs -/

/-- What every run keeps: the genesis, rollover rows under the keys of their days, one for each
day, and their baselines. -/
structure Rolled (e₀ : ℤ) (s : TickDesk) : Prop where
  initial : s.initialEquity = e₀
  keyed : ∀ e ∈ s.store.read, ∀ d ∈ e.payload.rolloverDay, e.key = .rollover d
  once : (rolloverDays s.store.read).Nodup
  baseline : Priced (initialState e₀ 0) s.store.read

variable {e₀ : ℤ}

/-- A day that rolls has no row yet. -/
lemma Rolled.fresh (h : Rolled e₀ s) {now : ℤ} (hr : s.Rolls now) :
    utcDay now ∉ rolloverDays s.store.read := by
  intro hmem
  obtain ⟨e, he, hday⟩ := List.mem_filterMap.mp hmem
  exact LedgerStore.byKey_eq_none_iff.mp hr.2.2 e he (h.keyed e he _ hday)

lemma rolloverDays_rolled (source : EventSource) (now : ℤ) (n : ℕ) (es : List Event) :
    rolloverDays (es ++ [{ s.rolloverRow source now with seq := n }]) =
      rolloverDays es ++ [utcDay now] := by
  rw [rolloverDays_append]
  rfl

lemma priced_snoc (day : ℤ) {es : List Event} {e : Event} {p : DailyRollover}
    (h : Priced (initialState e₀ 0) es) (hp : e.payload = .dailyRollover p)
    (he : p.dayStartEquityLamports = equityLamports (replay (initialState e₀ day) es)) :
    Priced (initialState e₀ 0) (es ++ [e]) := by
  intro front x q hpre hq
  rcases List.prefix_concat_iff.mp hpre with heq | hold
  · obtain ⟨rfl, hlast⟩ := List.append_inj' heq rfl
    rw [List.singleton_inj.mp hlast, hp] at hq
    cases hq
    rw [he, equity_day]
  · exact h front x q hold hq

lemma Rolled.step (h : Rolled e₀ s) (a : TickAction) : Rolled e₀ (s.step a) := by
  have hinitial : (s.step a).initialEquity = e₀ := (step_initial a).trans h.initial
  rcases step_read (s := s) a with ⟨source, now, rfl, hr, hread⟩ | ⟨-, fs, hfs, hread⟩
  · refine ⟨hinitial, ?_, ?_, ?_⟩
    · rw [hread]
      intro e he d hd
      rcases List.mem_append.mp he with hold | hnew
      · exact h.keyed e hold d hd
      · cases List.mem_singleton.mp hnew
        cases hd
        rfl
    · rw [hread, rolloverDays_rolled]
      exact List.nodup_append.mpr ⟨h.once, List.nodup_singleton _, by
        rintro d hd d' hd' rfl
        rw [List.mem_singleton] at hd'
        exact h.fresh hr (hd' ▸ hd)⟩
    · rw [hread]
      refine priced_snoc (utcDay now) h.baseline rfl ?_
      rw [← h.initial]
      rfl
  · refine ⟨hinitial, ?_, ?_, ?_⟩
    · rw [hread]
      intro e he d hd
      rcases List.mem_append.mp he with hold | hnew
      · exact h.keyed e hold d hd
      · rw [rolloverDay_none (hfs e hnew)] at hd
        cases hd
    · rw [hread, rolloverDays_append, rolloverDays_aside hfs, List.append_nil]
      exact h.once
    · rw [hread]
      exact h.baseline.append hfs

lemma opened_rolled (metaEquity : Option ℤ) (budgetEquity : ℤ) :
    Rolled (metaEquity.getD budgetEquity) (opened metaEquity budgetEquity) where
  initial := rfl
  keyed := by simp [opened, LedgerStore.read]
  once := List.nodup_nil
  baseline := by
    intro front e p hpre
    have hnil : front ++ [e] <+: [] := hpre
    simp at hnil

/-- The days stay in order over a step that is ahead, and over no other. -/
lemma forward_iff (h : (rolloverDays s.store.read).Pairwise (· ≤ ·)) (a : TickAction) :
    (rolloverDays (s.step a).store.read).Pairwise (· ≤ ·) ↔ s.Ahead a := by
  rcases step_read (s := s) a with ⟨source, now, rfl, hr, hread⟩ | ⟨hnot, fs, hfs, hread⟩
  · rw [hread, rolloverDays_rolled, List.pairwise_append]
    constructor
    · rintro ⟨-, -, hle⟩ - d hd
      exact hle d hd _ (List.mem_singleton.mpr rfl)
    · intro hahead
      refine ⟨h, List.pairwise_singleton _ _, fun d hd d' hd' => ?_⟩
      rw [List.mem_singleton.mp hd']
      exact hahead hr d hd
  · rw [hread, rolloverDays_append, rolloverDays_aside hfs, List.append_nil]
    refine ⟨fun _ => ?_, fun _ => h⟩
    cases a with
    | beginTick source now => exact fun hr => absurd hr (hnot source now rfl)
    | _ => trivial

/-- **Once a day.** In every state of a run there is one rollover a day, none for a day already
passed, with the equity folded before it, exactly when every tick that rolls a day is ahead. -/
theorem once_a_day_iff (metaEquity : Option ℤ) (budgetEquity : ℤ) (as : List TickAction) :
    (∀ bs, bs <+: as → OnceADay (initialState (metaEquity.getD budgetEquity) 0)
      (Runs.after step (opened metaEquity budgetEquity) bs).store.read) ↔
    Runs.Along step Ahead (opened metaEquity budgetEquity) as := by
  have hrolled : ∀ bs, Rolled (metaEquity.getD budgetEquity)
      (Runs.after step (opened metaEquity budgetEquity) bs) :=
    Runs.invariant (fun _ a h => h.step a) (opened_rolled metaEquity budgetEquity)
  rw [← Runs.always_iff_along (J := fun _ => True)
    (P := fun s => (rolloverDays s.store.read).Pairwise (· ≤ ·)) (fun _ _ _ => trivial)
    (fun _ a _ hp => forward_iff hp a) trivial List.Pairwise.nil]
  refine forall₂_congr fun bs _ => ⟨fun h => h.forward, fun h => ?_⟩
  exact ⟨(hrolled bs).once, h, (hrolled bs).baseline⟩

/-- A desk first started just after midnight, and a clock then set back behind it. -/
def setBack : List TickAction := [.beginTick .paper midnight, .beginTick .paper (midnight - 1)]

/-- The day that was over is opened after the one that follows it. -/
theorem set_back_reopens :
    ¬ ∀ (metaEquity : Option ℤ) (budgetEquity : ℤ) (as : List TickAction),
      OnceADay (initialState (metaEquity.getD budgetEquity) 0)
        (Runs.after step (opened metaEquity budgetEquity) as).store.read := by
  intro h
  have hdays : rolloverDays (Runs.after step (opened (some 10000000000) 10000000000)
      setBack).store.read = [1, 0] := by decide +kernel
  have hforward := (h (some 10000000000) 10000000000 setBack).forward
  rw [hdays] at hforward
  exact absurd hforward (by decide)

end TickDesk

end PumpGrok
