import PumpGrok.Desk.Orders

/-!
Cancels. A cancel is answered while its order is in flight; the order looks at the cancel once,
as it wakes from its sleep. A cancel answered during the sleep is therefore kept, and one
answered during the second reading is not.
-/

namespace PumpGrok

def Payload.fills (o : ℕ) : Payload → Bool
  | .fillRecorded p => p.orderId = o
  | _ => false

/-- How many fills an order has. -/
def LedgerStore.fillCount (st : LedgerStore) (o : ℕ) : ℕ :=
  st.read.countP fun e => e.payload.fills o

lemma Payload.fills_aside {o : ℕ} {p : Payload} (h : p.ofOrder = false) : p.fills o = false := by
  cases p <;> simp_all [fills, ofOrder]

lemma Payload.ends_of_fills {o : ℕ} {p : Payload} (h : p.fills o = true) : p.ends o = true := by
  cases p <;> simp_all [fills, ends]

namespace Sys

open LedgerStore

/-- The order a step's cancel was granted for. -/
def grantedBy (s : Sys) : Action → List ℕ
  | .cancel o => if (PumpGrok.cancel o s.world).1 then [o] else []
  | _ => []

/-- The orders for which some cancel of a run answered true. -/
def granted (cfg : DeskConfig) : Sys → List Action → List ℕ
  | _, [] => []
  | s, a :: as => s.grantedBy a ++ granted cfg (step cfg s a) as

/-- Some call waits for the second reading of an order. -/
def reading (s : Sys) (o : ℕ) : Bool :=
  s.calls.any fun c => match c.await with
    | some (_, .curve1 p _) => p.orderId = o
    | _ => false

/-- A step cancels no order that waits for its second reading. -/
def CancelsAsleep (s : Sys) : Action → Prop
  | .cancel o => s.reading o = false
  | _ => True

instance (s : Sys) (a : Action) : Decidable (s.CancelsAsleep a) := by
  cases a <;> unfold CancelsAsleep <;> infer_instance

lemma reading_of_waiting {s : Sys} {i : ℕ} {c : PlaceCall} {p : Placed} {q : Quoted}
    (h : s.waiting i = some (c, .curve1 p q)) : s.reading p.orderId = true := by
  obtain ⟨call, hi, hcall⟩ := Option.bind_eq_some_iff.mp h
  rw [reading, List.any_eq_true]
  exact ⟨call, List.mem_of_getElem? hi, by simp [hcall]⟩

/-- The state of a run with the cancels granted in it. -/
structure Kept (x : Sys × List ℕ) : Prop where
  ordered : x.1.Ordered
  drawn : ∀ o ∈ x.2, o < x.1.world.desk.nextId
  unfilled : ∀ o ∈ x.2, x.1.store.fillCount o = 0
  asleep : ∀ o ∈ x.2, ∀ i c p q, x.1.Holds i c p q → p.orderId = o →
    x.1.waiting i = some (c, .sleep p q) ∧ o ∈ x.1.world.mem.cancelled

variable {cfg : DeskConfig} {s s' : Sys} {hs : List ℕ}

/-- The part of `Kept` about the orders granted before a step. -/
structure KeptOf (s' : Sys) (hs : List ℕ) : Prop where
  drawn : ∀ o ∈ hs, o < s'.world.desk.nextId
  unfilled : ∀ o ∈ hs, s'.store.fillCount o = 0
  asleep : ∀ o ∈ hs, ∀ i c p q, s'.Holds i c p q → p.orderId = o →
    s'.waiting i = some (c, .sleep p q) ∧ o ∈ s'.world.mem.cancelled

/-- A step whose rows fill no order granted a cancel. -/
lemma Kept.step {rows : List Row} (h : Kept (s, hs))
    (ha : s.store.Adds s'.store s.world.desk.nextId s'.world.desk.nextId rows)
    (hids : s.world.desk.nextId ≤ s'.world.desk.nextId)
    (hrows : ∀ o ∈ hs, rows.countP (fun r => r.payload.fills o) = 0)
    (hheld : ∀ o ∈ hs, ∀ i c p q, s'.Holds i c p q → p.orderId = o → s.Holds i c p q ∧
      (s.waiting i = some (c, .sleep p q) → o ∈ s.world.mem.cancelled →
        s'.waiting i = some (c, .sleep p q) ∧ o ∈ s'.world.mem.cancelled)) : KeptOf s' hs where
  drawn o ho := (h.drawn o ho).trans_le hids
  unfilled o ho := by
    have hc := ha.counts (Payload.fills o) fun _ => Payload.fills_aside
    rw [fillCount, hc, hrows o ho]
    exact h.unfilled o ho
  asleep o ho i c p q hh hid := by
    obtain ⟨hs', hgo⟩ := hheld o ho i c p q hh hid
    obtain ⟨hw, hc⟩ := h.asleep o ho i c p q hs' hid
    exact hgo hw hc

/-- A step that leaves the orders alone. -/
lemma Kept.same (h : Kept (s, hs)) {rows : List Row}
    (ha : s.store.Adds s'.store s.world.desk.nextId s'.world.desk.nextId rows)
    (hids : s.world.desk.nextId ≤ s'.world.desk.nextId)
    (hrows : ∀ o ∈ hs, rows.countP (fun r => r.payload.fills o) = 0)
    (hw : ∀ i c p q, s'.Holds i c p q → s.Holds i c p q ∧ s'.waiting i = s.waiting i)
    (hc : s.world.mem.cancelled ⊆ s'.world.mem.cancelled) : KeptOf s' hs := by
  refine h.step ha hids hrows fun o _ i c p q hh _ => ?_
  obtain ⟨hh', hwi⟩ := hw i c p q hh
  exact ⟨hh', fun hsleep hmem => ⟨hwi ▸ hsleep, hc hmem⟩⟩

/-- A step that ends the call of one order. -/
lemma Kept.leaving (h : Kept (s, hs)) {rows : List Row} {i : ℕ} {c : PlaceCall} {p : Placed}
    {q : Quoted} (hi : s.Holds i c p q)
    (ha : s.store.Adds s'.store s.world.desk.nextId s'.world.desk.nextId rows)
    (hids : s.world.desk.nextId ≤ s'.world.desk.nextId)
    (hrows : ∀ o ∈ hs, rows.countP (fun r => r.payload.fills o) = 0)
    (hm : s.world.mem.Leaves i (some p.orderId) s'.world.mem)
    (hw : s'.waiting = Function.update s.waiting i none) : KeptOf s' hs := by
  refine h.step ha hids hrows fun o _ j c' p' q' hh hid => ?_
  rcases (holds_iff hw).mp hh with ⟨-, ho⟩ | ⟨hji, hh'⟩
  · simp at ho
  · refine ⟨hh', fun hsleep hmem => ⟨by rw [hw, Function.update_of_ne hji, hsleep], ?_⟩⟩
    refine hm.marked o hmem fun heq => hji ?_
    exact h.ordered.apart j i c' p' q' c p q hh' hi (hid.trans (Option.some.inj heq).symm)

/-- A step that ends a call without an order. -/
lemma Kept.never (h : Kept (s, hs)) {rows : List Row} {i : ℕ}
    (ha : s.store.Adds s'.store s.world.desk.nextId s'.world.desk.nextId rows)
    (hids : s.world.desk.nextId ≤ s'.world.desk.nextId)
    (hrows : ∀ o ∈ hs, rows.countP (fun r => r.payload.fills o) = 0)
    (hm : s.world.mem.Leaves i none s'.world.mem)
    (hw : s'.waiting = Function.update s.waiting i none) : KeptOf s' hs := by
  refine h.same ha hids hrows (fun j c p q hh => ?_) fun o ho => hm.marked o ho (by simp)
  rcases (holds_iff hw).mp hh with ⟨-, ho⟩ | ⟨hji, hh'⟩
  · simp at ho
  · exact ⟨hh', by rw [hw, Function.update_of_ne hji]⟩

lemma FillBatch.fills {o x : ℕ} {rows : List Row} (h : FillBatch o rows) (hx : x ≠ o) :
    rows.countP (fun r => r.payload.fills x) = 0 := by
  have he := h.ends x
  rw [if_neg hx] at he
  rw [List.countP_eq_zero] at he ⊢
  exact fun r hr hf => he r hr (Payload.ends_of_fills hf)

/-- An order that waits for its second reading was granted no cancel. -/
lemma Kept.not_granted (h : Kept (s, hs)) {i : ℕ} {c : PlaceCall} {p : Placed} {q : Quoted}
    (hi : s.waiting i = some (c, .curve1 p q)) : p.orderId ∉ hs := by
  intro ho
  have := (h.asleep _ ho i c p q (.inr hi) rfl).1
  rw [hi] at this
  simp at this

/-- **One step** keeps the cancels granted before it. -/
lemma Move.kept {a : Action} (h : Kept (s, hs)) (m : Move cfg s a s') : KeptOf s' hs := by
  have hsame : ∀ {f : ℕ → Option (PlaceCall × Wait)}, f = s.waiting → s'.waiting = f →
      ∀ i c p q, s'.Holds i c p q → s.Holds i c p q ∧ s'.waiting i = s.waiting i := by
    rintro f rfl hw i c p q hh
    unfold Holds at hh
    rw [hw] at hh
    exact ⟨hh, by rw [hw]⟩
  cases m with
  | beside hw hb =>
    refine h.same (adds_beside hb) hb.desk.ids (by simp) (hsame rfl hw) ?_
    rw [hb.mem.cancelled]
  | edited intact hw hs =>
    refine h.same (adds_edited hs) (by rw [hs]; exact le_rfl) (by simp) (hsame rfl hw) ?_
    rw [hs]
    exact Finset.Subset.refl _
  | forced f v hw hm hv hf hd =>
    have hids : s.world.desk.nextId ≤ s'.world.desk.nextId := by
      rw [hd]
      exact Nat.le_add_right _ _
    refine h.same (adds_forced hf hd) hids (fun o ho => ?_) (hsame rfl hw) ?_
    · have := h.drawn o ho
      exact FillBatch.fills (forceCloseRows_fill _ _ _ _ _) (by simp only at this; omega)
    · rw [hm.cancelled]
  | cancelled o ho =>
    exact h.same .nothing le_rfl (by simp) (fun i c p q hh => ⟨hh, rfl⟩)
      (Finset.subset_insert _ _)
  | asked c dec hn hc hp hm hw =>
    have hcons := check_consulted cfg (c.checkCall cfg .accepted) s.world.desk
    rw [hc] at hcons
    refine h.same (adds_consulted hcons) hcons.ids (by simp) (fun j c' p q hh => ?_) ?_
    · rcases (holds_iff hw).mp hh with ⟨-, ho⟩ | ⟨hji, hh'⟩
      · simp at ho
      · exact ⟨hh', by rw [hw, Function.update_of_ne hji]⟩
    · rw [hm.cancelled]
  | ended i c hi hd hm hw => exact h.never (adds_consulted hd) hd.ids (by simp) hm hw
  | refused i c reason detail hi hd ht hq hm hw =>
    refine h.never (adds_refused hd ht hq) (hd.ids.trans hq.ids) (fun o _ => ?_) hm hw
    simp [acceptedRefusal, rejectRow, Payload.fills]
  | @placed _ i c size dec seen quoted latency drop d hi hq hwr hs hw =>
    obtain ⟨hd, hids⟩ := written_consulted hwr
    have hid : s'.world.desk.nextId = d.nextId := by rw [hs]
    refine h.step (adds_placed h.ordered hwr (by rw [hs])) (by rw [hid]; exact hd.ids)
      (fun o _ => ?_) fun o ho j c' p' q' hh hid => ?_
    · have := placedRows_ends cfg c dec s.world.desk.nextId d.now o
      rw [List.countP_eq_zero] at this ⊢
      exact fun r hr hf => this r hr (Payload.ends_of_fills hf)
    · rcases (holds_iff hw).mp hh with ⟨rfl, hnew⟩ | ⟨hji, hh'⟩
      · -- the new order has a new id
        simp only [Option.some.injEq, Prod.mk.injEq, Wait.sleep.injEq, reduceCtorEq, and_false,
          or_false] at hnew
        obtain ⟨rfl, rfl, rfl⟩ := hnew
        have := h.drawn o ho
        rw [← hid] at this
        exact absurd this (lt_irrefl _)
      · refine ⟨hh', fun hsleep hmem => ⟨by rw [hw, Function.update_of_ne hji, hsleep], ?_⟩⟩
        rw [hs]
        exact hmem
  | woke i c p q hi hc hs hw =>
    have hst : s'.store = s.store := by unfold store; rw [hs]
    have ha : s.store.Adds s'.store s.world.desk.nextId s'.world.desk.nextId [] := by
      rw [hst, hs]
      exact .nothing
    refine h.step ha (by rw [hs]) (by simp) fun o ho j c' p' q' hh hid => ?_
    rcases (holds_iff hw).mp hh with ⟨rfl, hnew⟩ | ⟨hji, hh'⟩
    · -- an order granted a cancel does not get past its sleep
      simp only [Option.some.injEq, Prod.mk.injEq, Wait.curve1.injEq, reduceCtorEq, and_false,
        false_or] at hnew
      obtain ⟨rfl, rfl, rfl⟩ := hnew
      have := (h.asleep o ho j c p q (.inl hi) hid).2
      rw [← hid] at this
      exact absurd this hc
    · refine ⟨hh', fun hsleep hmem => ⟨by rw [hw, Function.update_of_ne hji, hsleep], ?_⟩⟩
      rw [hs]
      exact hmem
  | rejected i c p q reason detail fig hi hd hid hfee ht hq hm hw =>
    refine h.leaving hi (adds_rejected h.ordered hi hd hid ht hq) (hd.ids.trans hq.ids)
      (fun o _ => ?_) hm hw
    simp [confirmingRefusal, rejectRow, Payload.fills]
  | dropped i c p q hi hd hm hw why =>
    exact h.leaving hi (adds_consulted hd) hd.ids (by simp) hm hw
  | @bought _ i c p quote curve1 curve dec q out1 d hi hcurve hdec hp hin hne hf hq hm hw =>
    have hfill : FillBatch p.orderId (boughtRows cfg c p q curve out1 d) := boughtRows_fill ..
    have hcons := confirmed_consulted hdec
    refine h.leaving (.inr hi) (adds_filled h.ordered (.inr hi) hcons hf hfill hq)
      (hcons.ids.trans ((Nat.le_succ _).trans hq.ids)) (fun o ho => FillBatch.fills hfill ?_) hm hw
    rintro rfl
    exact h.not_granted hi ho
  | @sold _ i c p plan curve1 curve dec v gross1 d hi hcurve hdec hv hheld hp hin hf hq hm hw =>
    have hfill : FillBatch p.orderId (soldRows cfg c p plan curve v gross1 d) := soldRows_fill ..
    have hcons := confirmed_consulted hdec
    refine h.leaving (.inr hi) (adds_filled h.ordered (.inr hi) hcons hf hfill hq)
      (hcons.ids.trans ((Nat.le_succ _).trans hq.ids)) (fun o ho => FillBatch.fills hfill ?_) hm hw
    rintro rfl
    exact h.not_granted hi ho

/-- A cancel granted during the sleep joins those kept. -/
lemma kept_grantedBy {a : Action} (h : Kept (s, hs)) (hc : s.CancelsAsleep a) :
    Kept (step cfg s a, hs ++ s.grantedBy a) := by
  have hk := (step_move cfg s a).kept h
  have ho := (step_move cfg s a).ordered h.ordered
  have hold : s.grantedBy a = [] → Kept (step cfg s a, hs ++ s.grantedBy a) := by
    intro hnil
    rw [hnil, List.append_nil]
    exact ⟨ho, hk.drawn, hk.unfilled, hk.asleep⟩
  cases a with
  | cancel o =>
    by_cases hin : o ∈ s.world.mem.inflight
    · have hg : s.grantedBy (.cancel o) = [o] := by simp [grantedBy, PumpGrok.cancel, hin]
      have hs' : step cfg s (.cancel o) = { s with world := { s.world with
          mem := { s.world.mem with cancelled := insert o s.world.mem.cancelled } } } := by
        simp [Sys.step, PumpGrok.cancel, hin]
      obtain ⟨i, c, p, q, hh, rfl⟩ := (h.ordered.flying o).mp hin
      rw [hg]
      refine ⟨ho, ?_, ?_, ?_⟩
      · intro x hx
        rcases List.mem_append.mp hx with hx | hx
        · exact hk.drawn x hx
        · rw [List.mem_singleton.mp hx, hs']
          exact h.ordered.drawn hh
      · intro x hx
        rcases List.mem_append.mp hx with hx | hx
        · exact hk.unfilled x hx
        · rw [List.mem_singleton.mp hx, hs']
          have hp := h.ordered.pending i c p q hh
          rw [endings, List.countP_eq_zero] at hp
          show s.store.fillCount p.orderId = 0
          rw [fillCount, List.countP_eq_zero]
          exact fun e he hf => hp e he (Payload.ends_of_fills hf)
      · intro x hx j c' p' q' hh' hid
        rcases List.mem_append.mp hx with hx | hx
        · exact hk.asleep x hx j c' p' q' hh' hid
        · have hxo := List.mem_singleton.mp hx
          rw [hs'] at hh' ⊢
          have hsleep : s.waiting j = some (c', .sleep p' q') := by
            rcases hh' with hw | hw
            · exact hw
            · have hr : s.reading p'.orderId = true := reading_of_waiting hw
              rw [hid.trans hxo, show s.reading _ = false from hc] at hr
              exact absurd hr (by simp)
          exact ⟨hsleep, by simp [hxo]⟩
    · exact hold (by simp [grantedBy, PumpGrok.cancel, hin])
  | _ => exact hold rfl

/-- **Cancels.** In every run whose cancels find no order waiting for its second reading, an order
for which some cancel answered true has no fill. -/
theorem granted_unfilled (cfg : DeskConfig) (now e₀ : ℤ) (killswitch : KillSwitch)
    (as : List Action)
    (hc : Runs.Along (step cfg) CancelsAsleep (start now e₀ killswitch) as) :
    ∀ o ∈ granted cfg (start now e₀ killswitch) as,
      (Runs.after (step cfg) (start now e₀ killswitch) as).store.fillCount o = 0 := by
  have hrun : ∀ (as : List Action) (s : Sys) (hs : List ℕ), Kept (s, hs) →
      Runs.Along (step cfg) CancelsAsleep s as →
      Kept (Runs.after (step cfg) s as, hs ++ granted cfg s as) := by
    intro as
    induction as with
    | nil =>
      intro s hs h _
      simpa [granted] using h
    | cons a as ih =>
      intro s hs h hc
      have hkept : Kept (step cfg s a, hs ++ s.grantedBy a) := kept_grantedBy h hc.1
      have := ih _ _ hkept hc.2
      rwa [List.append_assoc] at this
  have hstart : Kept (start now e₀ killswitch, []) :=
    ⟨ordered_start now e₀ killswitch, by simp, by simp, by simp⟩
  have h := hrun as _ [] hstart hc
  rw [List.nil_append] at h
  exact h.unfilled

/-- A cancel during the sleep: the order is rejected. -/
def sampleEarlyCancel : List Action :=
  [sampleReserves, .startPlace (sampleBuy 'a' 1), .curve0 0 (some sampleCurve) 0 false,
    .cancel 1, .wake 0 false]

theorem granted_unfilled_sample :
    1 ∈ granted sampleConfig sampleStart sampleEarlyCancel ∧
      (sampleAfter sampleEarlyCancel).store.fillCount 1 = 0 := by
  have hgranted : 1 ∈ granted sampleConfig sampleStart sampleEarlyCancel := by decide +kernel
  exact ⟨hgranted,
    granted_unfilled sampleConfig 0 10000000000 {} sampleEarlyCancel (by decide +kernel) 1 hgranted⟩

/-- A cancel during the second reading: the order fills. -/
def sampleLateCancel : List Action :=
  [sampleReserves, .startPlace (sampleBuy 'a' 1), .curve0 0 (some sampleCurve) 0 false,
    .wake 0 false, .cancel 1, .curve1 0 (some sampleCurve)]

theorem granted_filled :
    ¬ ∀ (cfg : DeskConfig) (now e₀ : ℤ) (killswitch : KillSwitch) (as : List Action),
      ∀ o ∈ granted cfg (start now e₀ killswitch) as,
        (Runs.after (step cfg) (start now e₀ killswitch) as).store.fillCount o = 0 := by
  intro h
  have hlate : 1 ∈ granted sampleConfig sampleStart sampleLateCancel ∧
      (sampleAfter sampleLateCancel).store.fillCount 1 = 1 := by decide +kernel
  have hnone := h sampleConfig 0 10000000000 {} sampleLateCancel 1 hlate.1
  exact one_ne_zero (hlate.2.symm.trans hnone)

end Sys

end PumpGrok
