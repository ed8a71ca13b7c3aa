import PumpGrok.Desk.System
import PumpGrok.Execution.OrderRows
import PumpGrok.Execution.Stretches

/-!
What one step of the system can do, said once: the orders it moves between their awaits, the
rows it appends, and what it leaves of the adapter's memory. Every invariant of the system is
derived from these moves.
-/

namespace PumpGrok

open World

/-- The memory of orders is the same. -/
structure Adapter.SameOrders (a a' : Adapter) : Prop where
  inflight : a'.inflight = a.inflight
  cancelled : a'.cancelled = a.cancelled
  owned : a'.ownedOrder = a.ownedOrder

/-- The memory once call `i` has ended, an order of `o` with it. -/
structure Adapter.Leaves (i : ℕ) (o : Option ℕ) (a a' : Adapter) : Prop where
  owned : a'.ownedOrder = a.ownedOrder.erase i
  inflight : a'.inflight ⊆ a.inflight
  kept : ∀ x ∈ a.inflight, o ≠ some x → a.ownedOrder.get i ≠ some x → x ∈ a'.inflight
  gone : ∀ x, a.ownedOrder.get i = some x → x ∉ a'.inflight
  cancelled : a'.cancelled ⊆ a.cancelled
  marked : ∀ x ∈ a.cancelled, o ≠ some x → x ∈ a'.cancelled

/-- The desk changed by no order; the rows of other writers are among those given. -/
structure Desk.Beside (F : Row → Prop) (d d' : Desk) : Prop where
  store : d.store.Grows (AsideBatch F) d'.store
  ids : d.nextId ≤ d'.nextId
  decisions : d'.decisions = d.decisions

/-- The world changed by no order. -/
structure World.Beside (F : Row → Prop) (w w' : World) : Prop where
  desk : w.desk.Beside F w'.desk
  mem : w.mem.SameOrders w'.mem

section Beside

variable {F : Row → Prop}

instance : IsPreorder World (World.Beside F) where
  refl _ := ⟨⟨.refl, le_rfl, rfl⟩, rfl, rfl, rfl⟩
  trans _ _ _ h h' := ⟨⟨h.desk.store.trans h'.desk.store, h.desk.ids.trans h'.desk.ids,
    h'.desk.decisions.trans h.desk.decisions⟩, h'.mem.inflight.trans h.mem.inflight,
    h'.mem.cancelled.trans h.mem.cancelled, h'.mem.owned.trans h.mem.owned⟩

lemma Desk.Quietly.beside {d d' : Desk} (h : d.Quietly d') : d.Beside F d' :=
  ⟨h.store.mono fun _ _ => EngineRow.aside, h.ids, h.decisions⟩

end Beside

/-- The row another writer appends in a step. -/
def Action.foreign : Action → Row → Prop
  | .append other, row => row = other.row
  | _, _ => False

/-- The await of a call, if it is a `place` call in one. -/
def Call.await : Call → Option (PlaceCall × Wait)
  | .place c _ (.waiting w) => some (c, w)
  | _ => none

namespace Sys

def store (s : Sys) : LedgerStore := s.world.desk.store

/-- The `place` call of an index, while it waits, and its await. -/
def waiting (s : Sys) (i : ℕ) : Option (PlaceCall × Wait) := s.calls[i]?.bind Call.await

/-- Call `i` waits with its order placed. -/
def Holds (s : Sys) (i : ℕ) (c : PlaceCall) (p : Placed) (q : Quoted) : Prop :=
  s.waiting i = some (c, .sleep p q) ∨ s.waiting i = some (c, .curve1 p q)

/-- Call `i` has no order yet. -/
def Orderless (s : Sys) (i : ℕ) (c : PlaceCall) : Prop :=
  s.waiting i = none ∨ ∃ size, s.waiting i = some (c, .curve0 size)

/-- Why an order that is placed ends with no outcome row. -/
inductive Dropped (cfg : DeskConfig) (s : Sys) (i : ℕ) (c : PlaceCall) (p : Placed) (q : Quoted) :
    Action → Prop
  | aborted : Dropped cfg s i c p q (.abort i)
  | unwoken (overran : Bool) (reason : Reason) (detail : Detail) (fig : RejectFigures)
      (ho : overran = true ∨ p.orderId ∈ s.world.mem.cancelled)
      (ht : ¬ Takes s.store (confirmingRefusal cfg c reason detail fig s.world.desk.now)) :
      Dropped cfg s i c p q (.wake i overran)
  | unwritten (curve1 : Option CurveSnapshot) (reason : Reason) (detail : Detail)
      (fig : RejectFigures) {d : Desk}
      (hd : s.world.desk.Consulted cfg (c.checkCall cfg .confirming) d)
      (ht : ¬ Takes d.store (confirmingRefusal cfg c reason detail fig d.now)) :
      Dropped cfg s i c p q (.curve1 i curve1)
  | raised (curve1 : Option CurveSnapshot) {d : Desk} (h : Raised cfg c p q curve1 s.world d) :
      Dropped cfg s i c p q (.curve1 i curve1)

/-- **A step**, by what it does to the orders. -/
inductive Move (cfg : DeskConfig) (s : Sys) : Action → Sys → Prop
  | beside {a : Action} {s' : Sys} (hw : s'.waiting = s.waiting)
    (h : s.world.Beside a.foreign s'.world) :
      Move cfg s a s'
  | edited {a : Action} {s' : Sys} (intact : Bool) (hw : s'.waiting = s.waiting)
      (hs : s'.world = s.world.withDesk { s.world.desk with
        store := { s.store with intact := intact } }) : Move cfg s a s'
  | forced {a : Action} {s' : Sys} (f : ForceClose) (v : PositionView)
      (hw : s'.waiting = s.waiting) (hm : s.world.mem.SameOrders s'.world.mem)
      (hv : heldPosition (s.world.desk.fold cfg) f.mint = some v)
      (hf : s.store.Fresh (forceCloseRows f v (s.world.desk.nextId + 1) s.world.desk.nextId
        s.world.desk.now))
      (hd : s'.world.desk = { s.world.desk with
        nextId := s.world.desk.nextId + 2
        store := s.store.commit (forceCloseRows f v (s.world.desk.nextId + 1)
          s.world.desk.nextId s.world.desk.now) }) :
      Move cfg s a s'
  | cancelled (o : ℕ) (ho : o ∈ s.world.mem.inflight) :
      Move cfg s (.cancel o) { s with world := { s.world with
        mem := { s.world.mem with cancelled := insert o s.world.mem.cancelled } } }
  | asked {s' : Sys} (c : PlaceCall) (dec : RiskDecision)
      (hn : repeatOutcome s.store c.request = none)
      (hc : check cfg (c.checkCall cfg .accepted) s.world.desk = (.ok dec, s'.world.desk))
      (hp : dec.passed = true) (hm : s.world.mem.SameOrders s'.world.mem)
      (hw : s'.waiting = Function.update s.waiting s.calls.length
        (some (c, .curve0 (dec.sizeLamports.getD 0)))) :
      Move cfg s (.startPlace c) s'
  | ended {a : Action} {s' : Sys} (i : ℕ) (c : PlaceCall) (hi : s.Orderless i c)
      (hd : s.world.desk.Consulted cfg (c.checkCall cfg .accepted) s'.world.desk)
      (hm : s.world.mem.Leaves i none s'.world.mem)
      (hw : s'.waiting = Function.update s.waiting i none) : Move cfg s a s'
  | refused {a : Action} {s' : Sys} (i : ℕ) (c : PlaceCall) (reason : Reason) (detail : Detail)
      {d : Desk} (hi : s.Orderless i c)
      (hd : s.world.desk.Consulted cfg (c.checkCall cfg .accepted) d)
      (ht : Takes d.store (acceptedRefusal cfg c reason detail d.now))
      (hq : Desk.Quietly { d with
        store := d.store.commit [acceptedRefusal cfg c reason detail d.now] } s'.world.desk)
      (hm : s.world.mem.Leaves i none s'.world.mem)
      (hw : s'.waiting = Function.update s.waiting i none) : Move cfg s a s'
  | placed {s' : Sys} (i : ℕ) (c : PlaceCall) (size : ℤ) (dec : RiskDecision)
      (seen : CurveSnapshot) (quoted : Quoted) (latency : ℤ) (drop : Bool) {d : Desk}
      (hi : s.waiting i = some (c, .curve0 size)) (hq : QuotedOk cfg c size seen quoted)
      (hwr : Written cfg c s.world.desk.nextId (s.world.withDesk (drawnDesk s.world.desk)) dec d)
      (hs : s'.world =
        { desk := { d with
            store := d.store.commit (placedRows cfg c dec s.world.desk.nextId d.now) }
          mem := sleepMemory i s.world.desk.nextId s.world.mem })
      (hw : s'.waiting = Function.update s.waiting i (some (c, .sleep
        { orderId := s.world.desk.nextId, curve0 := seen, latency := latency, dropped := drop }
        quoted))) :
      Move cfg s (.curve0 i (some seen) latency drop) s'
  | woke {s' : Sys} (i : ℕ) (c : PlaceCall) (p : Placed) (q : Quoted)
      (hi : s.waiting i = some (c, .sleep p q)) (hc : p.orderId ∉ s.world.mem.cancelled)
      (hs : s'.world = s.world)
      (hw : s'.waiting = Function.update s.waiting i (some (c, .curve1 p q))) :
      Move cfg s (.wake i false) s'
  | rejected {a : Action} {s' : Sys} (i : ℕ) (c : PlaceCall) (p : Placed) (q : Quoted)
      (reason : Reason) (detail : Detail) (fig : RejectFigures) {d : Desk} (hi : s.Holds i c p q)
      (hd : s.world.desk.Consulted cfg (c.checkCall cfg .confirming) d)
      (hid : fig.orderId = some p.orderId) (hfee : 0 ≤ fig.fees)
      (ht : Takes d.store (confirmingRefusal cfg c reason detail fig d.now))
      (hq : Desk.Quietly { d with
        store := d.store.commit [confirmingRefusal cfg c reason detail fig d.now] } s'.world.desk)
      (hm : s.world.mem.Leaves i (some p.orderId) s'.world.mem)
      (hw : s'.waiting = Function.update s.waiting i none) : Move cfg s a s'
  | dropped {a : Action} {s' : Sys} (i : ℕ) (c : PlaceCall) (p : Placed) (q : Quoted)
      (hi : s.Holds i c p q)
      (hd : s.world.desk.Consulted cfg (c.checkCall cfg .confirming) s'.world.desk)
      (hm : s.world.mem.Leaves i (some p.orderId) s'.world.mem)
      (hw : s'.waiting = Function.update s.waiting i none) (why : Dropped cfg s i c p q a) :
      Move cfg s a s'
  | bought {s' : Sys} (i : ℕ) (c : PlaceCall) (p : Placed) (quote : BuyQuote)
      (curve1 : Option CurveSnapshot) (curve : CurveSnapshot) (dec : RiskDecision) (q : BuyQuote)
      (out1 : ℤ) {d : Desk} (hi : s.waiting i = some (c, .curve1 p (.buy quote)))
      (hcurve : CurveTaken c curve1 curve) (hdec : Confirmed cfg c p s.world dec d)
      (hp : BuyPriced cfg p quote dec curve q out1) (hin : q.threshold ≤ out1) (hne : out1 ≠ 0)
      (hf : d.store.Fresh (boughtRows cfg c p q curve out1 d))
      (hq : Desk.Quietly { d with
        nextId := d.nextId + 1
        store := d.store.commit (boughtRows cfg c p q curve out1 d) } s'.world.desk)
      (hm : s.world.mem.Leaves i (some p.orderId) s'.world.mem)
      (hw : s'.waiting = Function.update s.waiting i none) : Move cfg s (.curve1 i curve1) s'
  | sold {s' : Sys} (i : ℕ) (c : PlaceCall) (p : Placed) (plan : SellPlan)
      (curve1 : Option CurveSnapshot) (curve : CurveSnapshot) (dec : RiskDecision)
      (v : PositionView) (gross1 : ℤ) {d : Desk}
      (hi : s.waiting i = some (c, .curve1 p (.sell plan)))
      (hcurve : CurveTaken c curve1 curve) (hdec : Confirmed cfg c p s.world dec d)
      (hv : heldPosition (d.fold cfg) c.request.mint = some v)
      (hheld : plan.filledUnits ≤ v.tokenUnits)
      (hp : sellOut curve.sLamports curve.tUnits plan.filledUnits = .ok gross1)
      (hin : plan.threshold ≤ gross1 - cfg.fees.venueFee gross1)
      (hf : d.store.Fresh (soldRows cfg c p plan curve v gross1 d))
      (hq : Desk.Quietly { d with
        nextId := d.nextId + 1
        store := d.store.commit (soldRows cfg c p plan curve v gross1 d) } s'.world.desk)
      (hm : s.world.mem.Leaves i (some p.orderId) s'.world.mem)
      (hw : s'.waiting = Function.update s.waiting i none) : Move cfg s (.curve1 i curve1) s'

/-! ### Waits -/

lemma waiting_ge {s : Sys} {i : ℕ} (h : s.calls.length ≤ i) : s.waiting i = none := by
  unfold waiting
  rw [List.getElem?_eq_none h]
  rfl

lemma waiting_of {s : Sys} {i : ℕ} {c : PlaceCall} {own : Bool} {w : Wait}
    (h : s.calls[i]? = some (.place c own (.waiting w))) : s.waiting i = some (c, w) := by
  unfold waiting
  rw [h]
  rfl

lemma waiting_setCall {s : Sys} {i : ℕ} (hi : i < s.calls.length) (c : Call) (w : World) :
    (s.setCall i c w).waiting = Function.update s.waiting i c.await := by
  funext j
  rw [waiting, setCall]
  by_cases hj : j = i
  · subst hj
    simp [hi]
  · rw [Function.update_of_ne hj, List.getElem?_set_ne (Ne.symm hj), waiting]

lemma waiting_addCall (s : Sys) (c : Call) (w : World) :
    (s.addCall c w).waiting = Function.update s.waiting s.calls.length c.await := by
  funext j
  rw [waiting, addCall]
  rcases lt_trichotomy j s.calls.length with hj | rfl | hj
  · rw [Function.update_of_ne hj.ne, List.getElem?_append_left hj, waiting]
  · simp
  · rw [Function.update_of_ne hj.ne', waiting, List.getElem?_eq_none (by simpa using hj),
      List.getElem?_eq_none hj.le]

/-- A call that is no `place` call leaves the waits as they were. -/
lemma waiting_addCall_none (s : Sys) {c : Call} (hc : c.await = none) (w : World) :
    (s.addCall c w).waiting = s.waiting := by
  rw [waiting_addCall, hc]
  exact Function.update_eq_self_iff.mpr (waiting_ge le_rfl).symm

lemma waiting_setCall_none {s : Sys} {i : ℕ} {c₀ c : Call} (h₀ : s.calls[i]? = some c₀)
    (hc₀ : c₀.await = none) (hc : c.await = none) (w : World) :
    (s.setCall i c w).waiting = s.waiting := by
  have hi : i < s.calls.length := (List.getElem?_eq_some_iff.mp h₀).1
  rw [waiting_setCall hi, hc]
  refine Function.update_eq_self_iff.mpr ?_
  rw [waiting, h₀]
  exact hc₀.symm

/-! ### What a call shows -/

/-- What the call of an index shows of itself. -/
def look {β : Type} (f : Call → Option β) (s : Sys) (i : ℕ) : Option β := s.calls[i]?.bind f

lemma look_setCall {β : Type} {f : Call → Option β} {s : Sys} {i j : ℕ} {c : Call} {w : World}
    {b : β} (h : (s.setCall i c w).look f j = some b) :
    (j = i ∧ f c = some b) ∨ (j ≠ i ∧ s.look f j = some b) := by
  obtain ⟨call, hj, hc⟩ := Option.bind_eq_some_iff.mp h
  by_cases hji : j = i
  · subst hji
    rw [setCall, List.getElem?_set_self'] at hj
    obtain ⟨_, _, rfl⟩ := Option.map_eq_some_iff.mp hj
    exact .inl ⟨rfl, hc⟩
  · rw [setCall, List.getElem?_set_ne (Ne.symm hji)] at hj
    exact .inr ⟨hji, Option.bind_eq_some_iff.mpr ⟨call, hj, hc⟩⟩

lemma look_addCall {β : Type} {f : Call → Option β} {s : Sys} {j : ℕ} {c : Call} {w : World}
    {b : β} (h : (s.addCall c w).look f j = some b) :
    (j = s.calls.length ∧ f c = some b) ∨ s.look f j = some b := by
  obtain ⟨call, hj, hc⟩ := Option.bind_eq_some_iff.mp h
  rw [addCall] at hj
  rcases lt_trichotomy j s.calls.length with hlt | rfl | hgt
  · rw [List.getElem?_append_left hlt] at hj
    exact .inr (Option.bind_eq_some_iff.mpr ⟨call, hj, hc⟩)
  · simp only [List.getElem?_concat_length, Option.some.injEq] at hj
    subst hj
    exact .inl ⟨rfl, hc⟩
  · rw [List.getElem?_eq_none (by simpa using hgt)] at hj
    simp at hj

/-! ### The end of a call -/

lemma settleProbes_quietly (cfg : DeskConfig) (c : PlaceCall) (owner : ℕ) (ok : Bool) (w : World) :
    w.desk.Quietly (settleProbes cfg c owner ok w).2.desk ∧
      (settleProbes cfg c owner ok w).2.mem = w.mem := by
  unfold settleProbes
  split_ifs
  · exact ⟨releaseOrderProbes_quietly _ ok _ w.desk, rfl⟩
  · exact ⟨.refl _, rfl⟩

lemma concludePlace_run (cfg : DeskConfig) (c : PlaceCall) (owner : ℕ) (own : Bool)
    (outcome : Except Exc Fill) (w : World) :
    w.desk.Quietly (concludePlace cfg c owner own outcome w).2.desk ∧
      (concludePlace cfg c owner own outcome w).2.mem = leave c owner own w.mem := by
  obtain ⟨hd, hm⟩ := settleProbes_quietly cfg c owner outcome.isOk w
  unfold concludePlace
  exact ⟨hd, by simp only [hm]⟩

/-- What the end of a call leaves, after a memory that has at most let its order go. -/
lemma leaves_leave (c : PlaceCall) (i : ℕ) (own : Bool) {a b : Adapter} {o : Option ℕ}
    (hown : b.ownedOrder = a.ownedOrder) (hsub : b.inflight ⊆ a.inflight)
    (hkept : ∀ x ∈ a.inflight, o ≠ some x → x ∈ b.inflight) (hc : b.cancelled ⊆ a.cancelled)
    (hk : ∀ x ∈ a.cancelled, o ≠ some x → x ∈ b.cancelled) : a.Leaves i o (leave c i own b) := by
  have hb : ∃ b' : Adapter, leave c i own b = clearOwned i b' ∧ b'.ownedOrder = b.ownedOrder ∧
      b'.inflight = b.inflight ∧ b'.cancelled = b.cancelled := by
    unfold leave
    split_ifs
    · exact ⟨_, rfl, rfl, rfl, rfl⟩
    · exact ⟨_, rfl, rfl, rfl, rfl⟩
  obtain ⟨b', hl, ho, hi, hcc⟩ := hb
  rw [hl]
  unfold clearOwned
  rcases hg : b'.ownedOrder.get i with - | x
  · have hga : a.ownedOrder.get i = none := by rw [← hown, ← ho, hg]
    refine ⟨?_, by simpa [hi] using hsub, ?_, ?_, by simpa [hcc] using hc, by simpa [hcc] using hk⟩
    · rw [Dict.erase_of_get_none hga, ho, hown]
    · intro y hy hne _
      simpa [hi] using hkept y hy hne
    · simp [hga]
  · have hga : a.ownedOrder.get i = some x := by rw [← hown, ← ho, hg]
    refine ⟨by simp [ho, hown], ?_, ?_, ?_, by simpa [hcc] using hc, by simpa [hcc] using hk⟩
    · simpa [hi] using (Finset.erase_subset _ _).trans hsub
    · intro y hy hne hy'
      have : y ≠ x := fun h => hy' (by rw [hga, h])
      simpa [hi, this] using hkept y hy hne
    · intro y hy
      rw [hga] at hy
      simp [← Option.some.inj hy]

/-- A resumed call: it was not suspended there, it suspends again, or it ends. -/
lemma resumePlace_cases (cfg : DeskConfig) (s : Sys) (i : ℕ)
    (stretch : PlaceCall → Wait → Option (Prog World Exc Next)) :
    s.resumePlace cfg i stretch = s ∨
    ∃ c wait m, s.waiting i = some (c, wait) ∧ stretch c wait = some m ∧
      ((∃ next w, m s.world = (.ok (.wait next), w) ∧ (s.resumePlace cfg i stretch).world = w ∧
          (s.resumePlace cfg i stretch).waiting = Function.update s.waiting i (some (c, next))) ∨
        ∃ (o : Except Exc Fill) (w : World) (own : Bool), m s.world = (o.map .done, w) ∧
          w.desk.Quietly (s.resumePlace cfg i stretch).world.desk ∧
          (s.resumePlace cfg i stretch).world.mem = leave c i own w.mem ∧
          (s.resumePlace cfg i stretch).waiting = Function.update s.waiting i none) := by
  unfold resumePlace
  split
  · rename_i c own wait hcall
    have hi : i < s.calls.length := (List.getElem?_eq_some_iff.mp hcall).1
    split
    · exact .inl rfl
    · rename_i m hm
      refine .inr ⟨c, wait, m, waiting_of hcall, hm, ?_⟩
      unfold runPlace
      rcases hr : m s.world with ⟨x | (next | fill), w⟩
      · obtain ⟨hd, hmem⟩ := concludePlace_run cfg c i own (.error x) w
        exact .inr ⟨.error x, w, own, rfl, hd, hmem, waiting_setCall hi _ _⟩
      · exact .inl ⟨next, w, rfl, rfl, waiting_setCall hi _ _⟩
      · obtain ⟨hd, hmem⟩ := concludePlace_run cfg c i own (.ok fill) w
        exact .inr ⟨.ok fill, w, own, rfl, hd, hmem, waiting_setCall hi _ _⟩
  · exact .inl rfl

/-! ### One move for each action -/

section Place

variable {cfg : DeskConfig} {s : Sys}

lemma Move.idle {a : Action} : Move cfg s a s := .beside rfl (refl_of _ _)

/-- A call with no order ends. -/
lemma Move.unplaced {a : Action} {s' : Sys} {i : ℕ} {c : PlaceCall} {own : Bool} {w : World}
    (w₀ : World) (hi : s.Orderless i c) (hw₀ : w₀.desk = s.world.desk)
    (hm₀ : s.world.mem.SameOrders w₀.mem)
    (hu : Unplaced cfg c w₀ w) (hd : w.desk.Quietly s'.world.desk)
    (hm : s'.world.mem = leave c i own w.mem)
    (hw : s'.waiting = Function.update s.waiting i none) : Move cfg s a s' := by
  have hleave : ∀ b : Adapter, b = w₀.mem → s.world.mem.Leaves i none (leave c i own b) := by
    rintro b rfl
    refine leaves_leave c i own hm₀.owned ?_ ?_ ?_ ?_
    · rw [hm₀.inflight]
    · intro x hx _
      rwa [hm₀.inflight]
    · rw [hm₀.cancelled]
    · intro x hx _
      rwa [hm₀.cancelled]
  cases hu with
  | silent hcons =>
    rw [hw₀] at hcons
    exact .ended i c hi (hcons.trans (Desk.Quietly.consulted hd)) (hm ▸ hleave _ rfl) hw
  | refused reason detail hcons ht =>
    rw [hw₀] at hcons
    exact .refused i c reason detail hi hcons ht hd (hm ▸ hleave _ rfl) hw

lemma startPlace_move (c : PlaceCall) : Move cfg s (.startPlace c) (s.startPlace cfg c) := by
  set w₀ : World := { s.world with mem :=
    { s.world.mem with activePlaces := insert c.key s.world.mem.activePlaces } } with hw₀
  have hsame : s.world.mem.SameOrders w₀.mem := ⟨rfl, rfl, rfl⟩
  have hlt : s.Orderless s.calls.length c := .inl (waiting_ge le_rfl)
  unfold startPlace runPlace
  simp only [← hw₀]
  have hrun := placeStart_run cfg c w₀
  rcases hr : placeStart cfg c w₀ with ⟨r, w⟩
  rw [hr] at hrun
  dsimp only at hrun
  generalize decide (c.key ∉ s.world.mem.activePlaces) = own
  have hend : ∀ (o : Except Exc Fill), Unplaced cfg c w₀ w →
      Move cfg s (.startPlace c)
        (s.addCall (.place c own (.finished (concludePlace cfg c s.calls.length own o w).1))
          (concludePlace cfg c s.calls.length own o w).2) := by
    intro o hu
    obtain ⟨hd, hm⟩ := concludePlace_run cfg c s.calls.length own o w
    exact .unplaced w₀ hlt rfl hsame hu hd hm (waiting_addCall _ _ _)
  cases hrun with
  | answered o h =>
    have hu : Unplaced cfg c w₀ w₀ := .silent (refl_of _ _)
    rcases o with x | fill
    · exact hend (.error x) hu
    · exact hend (.ok fill) hu
  | ended x hn hu => exact hend (.error x) hu
  | asked dec hn hc hp => exact .asked c dec hn hc hp hsame (waiting_addCall _ _ _)

lemma curve0_move (i : ℕ) (curve : Option CurveSnapshot) (latency : ℤ) (dropped : Bool) :
    Move cfg s (.curve0 i curve latency dropped)
      (s.resumePlace cfg i (curve0Stretch cfg i curve latency dropped)) := by
  rcases resumePlace_cases cfg s i (curve0Stretch cfg i curve latency dropped) with
    h | ⟨c, wait, m, hi, hm, h⟩
  · rw [h]
    exact .idle
  · cases wait with
    | curve0 size =>
      obtain rfl := Option.some.inj hm
      have hrun := placeCurve0_run cfg c i size curve latency dropped s.world
      rcases h with ⟨next, w, hr, hw, hwait⟩ | ⟨o, w, own, hr, hd, hmem, hwait⟩
      · rw [hr] at hrun
        generalize hnext : Except.ok (Next.wait next) = r at hrun
        cases hrun with
        | ended o hu => rcases o with x | fill <;> simp at hnext
        | placed dec seen quoted hseen hq hwr =>
          obtain rfl := Next.wait.inj (Except.ok.inj hnext)
          subst hseen
          exact .placed i c size dec seen quoted latency dropped hi hq hwr hw hwait
      · rw [hr] at hrun
        generalize hnext : o.map Next.done = r at hrun
        cases hrun with
        | ended o' hu =>
          exact .unplaced s.world (.inr ⟨size, hi⟩) rfl ⟨rfl, rfl, rfl⟩ hu hd hmem hwait
        | placed => rcases o with x | fill <;> simp [Except.map] at hnext
    | sleep p q => simp [curve0Stretch] at hm
    | curve1 p q => simp [curve0Stretch] at hm

/-- A placed order refused, or dropped where the refusal could not be written. -/
lemma Move.refusing {a : Action} {s' : Sys} {i : ℕ} {c : PlaceCall} {p : Placed} {q : Quoted}
    {own : Bool} {w : World} (w₀ : World) (hi : s.Holds i c p q)
    (hd₀ : s.world.desk.Consulted cfg (c.checkCall cfg .confirming) w₀.desk)
    (hm₀ : w₀.mem.inflight = s.world.mem.inflight.erase p.orderId)
    (hown : w₀.mem.ownedOrder = s.world.mem.ownedOrder)
    (hc : w₀.mem.cancelled ⊆ s.world.mem.cancelled)
    (hk : ∀ x ∈ s.world.mem.cancelled, x ≠ p.orderId → x ∈ w₀.mem.cancelled)
    (h : Refusing cfg c p.orderId w₀ w) (hd : w.desk.Quietly s'.world.desk)
    (hm : s'.world.mem = leave c i own w.mem)
    (hw : s'.waiting = Function.update s.waiting i none)
    (why : ∀ reason detail fig,
      ¬ Takes w₀.desk.store (confirmingRefusal cfg c reason detail fig w₀.desk.now) →
      Dropped cfg s i c p q a) : Move cfg s a s' := by
  have hleave : s.world.mem.Leaves i (some p.orderId) (leave c i own w₀.mem) := by
    refine leaves_leave c i own hown ?_ ?_ hc fun x hx hne => hk x hx fun hxo => hne (by rw [hxo])
    · rw [hm₀]
      exact Finset.erase_subset _ _
    · intro x hx hne
      rw [hm₀]
      exact Finset.mem_erase.mpr ⟨fun hxo => hne (by rw [hxo]), hx⟩
  cases h with
  | written reason detail fig hid hfee ht =>
    exact .rejected i c p q reason detail fig hi hd₀ hid hfee ht hd (hm ▸ hleave) hw
  | unwritten reason detail fig ht =>
    exact .dropped i c p q hi (hd₀.trans (Desk.Quietly.consulted hd)) (hm ▸ hleave) hw
      (why reason detail fig ht)

lemma wake_move (i : ℕ) (overran : Bool) :
    Move cfg s (.wake i overran) (s.resumePlace cfg i (wakeStretch cfg overran)) := by
  rcases resumePlace_cases cfg s i (wakeStretch cfg overran) with h | ⟨c, wait, m, hi, hm, h⟩
  · rw [h]
    exact .idle
  · cases wait with
    | sleep p q =>
      obtain rfl := Option.some.inj hm
      have hrun := placeWake_run cfg c p q overran s.world
      rcases h with ⟨next, w, hr, hw, hwait⟩ | ⟨o, w, own, hr, hd, hmem, hwait⟩
      · rw [hr] at hrun
        generalize hnext : Except.ok (Next.wait next) = r at hrun
        cases hrun with
        | waits ho hc =>
          obtain rfl := Next.wait.inj (Except.ok.inj hnext)
          subst ho
          exact .woke i c p q hi hc hw hwait
        | refused => simp at hnext
      · rw [hr] at hrun
        generalize hnext : o.map Next.done = r at hrun
        cases hrun with
        | waits => rcases o with x | fill <;> simp [Except.map] at hnext
        | refused x cancelled ho hc hk href =>
          refine .refusing { s.world with mem :=
            { awayMemory p.orderId s.world.mem with cancelled := cancelled } } (.inl hi)
            (refl_of _ _) rfl rfl hc hk href hd hmem hwait fun reason detail fig ht => ?_
          exact .unwoken overran reason detail fig ho ht
    | curve0 size => simp [wakeStretch] at hm
    | curve1 p q => simp [wakeStretch] at hm

/-- What an order that filled leaves. -/
lemma settled_leaves (c : PlaceCall) (i : ℕ) (own : Bool) (order : ℕ) (mint : Mint)
    (curve : CurveSnapshot) (t : ℤ) (a : Adapter) :
    a.Leaves i (some order) (leave c i own (settledMemory order mint curve t a)) := by
  refine leaves_leave c i own rfl (Finset.erase_subset _ _) ?_ (Finset.Subset.refl _)
    fun x hx _ => hx
  intro x hx hne
  exact Finset.mem_erase.mpr ⟨fun hxo => hne (by rw [hxo]), hx⟩

lemma curve1_move (i : ℕ) (curve1 : Option CurveSnapshot) :
    Move cfg s (.curve1 i curve1) (s.resumePlace cfg i (curve1Stretch cfg curve1)) := by
  rcases resumePlace_cases cfg s i (curve1Stretch cfg curve1) with h | ⟨c, wait, m, hi, hm, h⟩
  · rw [h]
    exact .idle
  · cases wait with
    | curve1 p q =>
      obtain rfl := Option.some.inj hm
      have hrun := placeCurve1_run cfg c p q curve1 s.world
      rcases h with ⟨next, w, hr, hw, hwait⟩ | ⟨o, w, own, hr, hd, hmem, hwait⟩
      · rw [hr] at hrun
        generalize hnext : Except.ok (Next.wait next) = r at hrun
        cases hrun <;> simp at hnext
      · rw [hr] at hrun
        generalize hnext : o.map Next.done = r at hrun
        cases hrun with
        | @refused x d w' hcons href =>
          refine .refusing ((s.world.withDesk d).away p.orderId) (.inr hi) hcons rfl rfl
            (Finset.Subset.refl _) (fun y hy _ => hy) href hd hmem hwait
            fun reason detail fig ht => ?_
          exact .unwritten curve1 reason detail fig hcons ht
        | raised x hcons hraised =>
          refine .dropped i c p q (.inr hi) (hcons.trans (Desk.Quietly.consulted hd)) ?_ hwait
            (.raised curve1 hraised)
          rw [hmem]
          exact leaves_leave c i own rfl (Finset.Subset.refl _) (fun x hx _ => hx)
            (Finset.Subset.refl _) fun x hx _ => hx
        | bought fill quote curve dec q' out1 hq hcurve hdec hp hin hne hc hf =>
          subst hq
          exact .bought i c p quote curve1 curve dec q' out1 hi hcurve hdec hp hin hne hf hd
            (hmem ▸ settled_leaves c i own _ _ _ _ _) hwait
        | sold fill plan curve dec v gross1 hq hcurve hdec hv hheld hp hin hc hf =>
          subst hq
          exact .sold i c p plan curve1 curve dec v gross1 hi hcurve hdec hv hheld hp hin hf hd
            (hmem ▸ settled_leaves c i own _ _ _ _ _) hwait
    | curve0 size => simp [curve1Stretch] at hm
    | sleep p q => simp [curve1Stretch] at hm

end Place

/-! ### The other actions -/

section Others

variable {cfg : DeskConfig} {s : Sys}

variable {F : Row → Prop}

/-- A change of the price tables. -/
lemma beside_prices (f : Adapter → Adapter) (h : ∀ a : Adapter, a.SameOrders (f a)) :
    Prog.Keeps (World.Beside F) (World.remember f) := fun w => ⟨⟨.refl, le_rfl, rfl⟩, h w.mem⟩

lemma beside_onDesk {α : Type} {m : Prog Desk Exc α} (h : Prog.Keeps (Desk.Beside F) m) :
    Prog.Keeps (World.Beside F) (World.onDesk m) := h.on fun _ _ hs => ⟨hs, rfl, rfl, rfl⟩

lemma beside_onStore {α : Type} {m : Prog LedgerStore Exc α}
    (h : Prog.Keeps (LedgerStore.Grows (AsideBatch F)) m) :
    Prog.Keeps (World.Beside F) (World.onStore m) :=
  beside_onDesk (h.on fun _ _ hs => ⟨hs, le_rfl, rfl⟩)

lemma beside_ofExcept {α : Type} (e : Except Exc α) :
    Prog.Keeps (World.Beside F) (World.ofExcept e) := by
  cases e with
  | ok a => exact .pure a
  | error x => exact .raise x

lemma beside_append {row : Row} (ha : row.Aside) (hn : ∀ st, row.numbered st = true)
    (hh : ∀ st, row.haltOk st = true) :
    Prog.Keeps (World.Beside F) (World.onStore (LedgerStore.append row)) :=
  beside_onStore fun st => LedgerStore.grows_append fun _ => .mk row ha (hn st) (.inl (hh st))

lemma markToMarket_beside (mint : Mint) (source : EventSource) (state : LedgerState)
    (pos : PositionView) (curve : Option CurveSnapshot) :
    Prog.Keeps (World.Beside F) (markToMarket cfg mint source state pos curve) := by
  unfold markToMarket
  rcases curve with - | curve
  · exact .pure _
  · refine .ite (.pure _)
      ((beside_ofExcept _).bind fun v => (beside_ofExcept _).bind fun price => ?_)
    refine Prog.Keeps.bind (.read _) fun ts => ?_
    refine (beside_append ⟨rfl, rfl⟩ (fun _ => rfl) fun _ => rfl).bind fun row => ?_
    refine Prog.Keeps.bind (beside_prices _ ?_) fun _ => .pure _
    exact fun _ => ⟨rfl, rfl, rfl⟩

lemma priceOne_beside (b : BookMark) (mint : Mint) (pos : PositionView)
    (rest : List (Mint × PositionView)) (curve : Option CurveSnapshot) :
    Prog.Keeps (World.Beside F) (priceOne cfg b mint pos rest curve) := by
  unfold priceOne
  split
  · exact .pure _
  · refine (beside_ofExcept _).bind fun v => (beside_ofExcept _).bind fun price => ?_
    refine Prog.Keeps.bind (beside_prices _ ?_) fun _ => .pure _
    exact fun _ => ⟨rfl, rfl, rfl⟩

lemma appendMarkRow_beside (b : BookMark) : Prog.Keeps (World.Beside F) (appendMarkRow b) := by
  unfold appendMarkRow
  refine Prog.Keeps.bind (.read _) fun ts => Prog.Keeps.bind (.read _) fun known => ?_
  refine .ite (.pure _) ?_
  exact (beside_append ⟨rfl, rfl⟩ (fun _ => rfl) fun _ => rfl).bind fun row => .pure _

lemma nextBook_beside (b : BookMark) (w : World) : w.Beside F (nextBook b w).2 := by
  unfold nextBook
  split
  · exact refl_of _ w
  · exact appendMarkRow_beside b w

lemma closeStart_beside (reason : ExitReason) :
    Prog.Keeps (World.Beside F) (closeStart reason) := by
  unfold closeStart
  refine .ite (.raise _) fun w => ?_
  have hv : Prog.Keeps (World.Beside F) (World.onStore LedgerStore.verify) :=
    beside_onStore fun _ => LedgerStore.grows_verify
  rcases h : World.onStore LedgerStore.verify w with ⟨x | u, w'⟩
  · exact hv.run h
  · exact hv.run h

/-- A forced close of a holding is the append of its rows. -/
lemma forceClose_eq {f : ForceClose} {w : World} {v : PositionView}
    (hv : heldPosition (w.desk.fold cfg) f.mint = some v) :
    forceClose cfg f w = (do
      let stored ← World.onStore (LedgerStore.appendBatch
        (forceCloseRows f v (w.desk.nextId + 1) w.desk.nextId w.desk.now))
      World.remember fun a =>
        { a with
          frozenMarks := a.frozenMarks.set f.mint f.valued.proceeds
          lastPriceTs := a.lastPriceTs.erase f.mint }
      pure stored[1]? : Prog World Exc (Option Event)) (w.withDesk (drawnDesk w.desk)) := by
  unfold forceClose
  rw [Prog.bind_run_ok (fold_run cfg w), hv]
  rfl

/-- The world once the rows of a forced close are on the ledger. -/
def closedWorld (f : ForceClose) (v : PositionView) (w : World) : World where
  desk := { w.desk with
    nextId := w.desk.nextId + 2
    store := w.desk.store.commit
      (forceCloseRows f v (w.desk.nextId + 1) w.desk.nextId w.desk.now) }
  mem := { w.mem with
    frozenMarks := w.mem.frozenMarks.set f.mint f.valued.proceeds
    lastPriceTs := w.mem.lastPriceTs.erase f.mint }

/-- A forced close finds no holding, or commits the rows that close it, or the store takes
none of them. -/
lemma forceClose_cases (cfg : DeskConfig) (f : ForceClose) (w : World) :
    (heldPosition (w.desk.fold cfg) f.mint = none ∧ forceClose cfg f w = (.ok none, w)) ∨
    ∃ v, heldPosition (w.desk.fold cfg) f.mint = some v ∧
      let rows := forceCloseRows f v (w.desk.nextId + 1) w.desk.nextId w.desk.now
      (w.desk.store.inconsistent = false ∧ w.desk.store.Fresh rows ∧ forceClose cfg f w =
          (.ok (LedgerStore.stamp (w.desk.store.count + 1) rows)[1]?, closedWorld f v w)) ∨
        (¬ (w.desk.store.inconsistent = false ∧ w.desk.store.Fresh rows) ∧
          ∃ x, forceClose cfg f w = (.error x, w.withDesk (drawnDesk w.desk))) := by
  rcases hv : heldPosition (w.desk.fold cfg) f.mint with - | v
  · refine .inl ⟨rfl, ?_⟩
    unfold forceClose
    rw [Prog.bind_run_ok (fold_run cfg w), hv]
    rfl
  · refine .inr ⟨v, rfl, ?_⟩
    rw [forceClose_eq hv]
    set rows := forceCloseRows f v (w.desk.nextId + 1) w.desk.nextId w.desk.now with hrows
    rcases ha : LedgerStore.appendBatch rows w.desk.store with ⟨x | es, st⟩
    · obtain ⟨-, rfl, hx⟩ := LedgerStore.appendBatch_error_iff.mp ha
      have hs : World.onStore (LedgerStore.appendBatch rows) (w.withDesk (drawnDesk w.desk)) =
          (.error x, w.withDesk (drawnDesk w.desk)) := onStore_run ha
      refine .inr ⟨?_, x, Prog.bind_run_error hs⟩
      rintro ⟨hc, hf⟩
      rcases hx with ⟨hi, -⟩ | ⟨-, hn, -⟩
      · simp [hc] at hi
      · exact hn hf
    · obtain ⟨hnil, -⟩ | ⟨-, hc, hf, rfl, rfl⟩ := LedgerStore.appendBatch_ok_iff.mp ha
      · simp [hrows, forceCloseRows] at hnil
      have hs : World.onStore (LedgerStore.appendBatch rows) (w.withDesk (drawnDesk w.desk)) =
          (.ok _, (w.withDesk (drawnDesk w.desk)).commit rows) := onStore_run ha
      exact .inl ⟨hc, hf, Prog.bind_run_ok hs⟩

/-- The closes that end in a forced close, or before it. -/
lemma closing_run {α : Type} {m : Prog World Exc α} {w : World} {a : Action} {s' : Sys}
    (h : (m w).2 = w ∨ ∃ f, (m w).2 = (forceClose cfg f w).2)
    (hw : w = s.world) (hs : s'.world = (m w).2) (hwait : s'.waiting = s.waiting) :
    Move cfg s a s' := by
  subst hw
  rcases h with h | ⟨f, h⟩
  · exact .beside hwait (by rw [hs, h]; exact refl_of _ _)
  · rw [h] at hs
    rcases forceClose_cases cfg f s.world with
      ⟨-, hr⟩ | ⟨v, hv, ⟨-, hf, hr⟩ | ⟨-, x, hr⟩⟩ <;> rw [hr] at hs
    · exact .beside hwait (by rw [hs]; exact refl_of _ _)
    · exact .forced f v hwait (by rw [hs]; exact ⟨rfl, rfl, rfl⟩) hv hf (by rw [hs]; rfl)
    · refine .beside hwait ?_
      rw [hs]
      exact ⟨⟨.refl, Nat.le_add_right _ _, rfl⟩, rfl, rfl, rfl⟩

lemma closeOnGraduation_cases (cfg : DeskConfig) (mint : Mint) (lastS lastT : ℤ)
    (source : EventSource) (w : World) :
    (closeOnGraduation cfg mint lastS lastT source w).2 = w ∨
      ∃ f, (closeOnGraduation cfg mint lastS lastT source w).2 = (forceClose cfg f w).2 := by
  unfold closeOnGraduation
  rw [Prog.bind_run_ok (fold_run cfg w)]
  rcases hv : heldPosition (w.desk.fold cfg) mint with - | v
  · exact .inl rfl
  · simp only
    rcases hc : curveExit cfg.fees lastS lastT v.tokenUnits with x | valued
    · exact .inl rfl
    · exact .inr ⟨_, rfl⟩

lemma checkBlind_cases (cfg : DeskConfig) (mint : Mint) (source : EventSource) (w : World) :
    (checkBlind cfg mint source w).2 = w ∨
      ∃ f, (checkBlind cfg mint source w).2 = (forceClose cfg f w).2 := by
  unfold checkBlind
  rw [Prog.bind_run_ok (fold_run cfg w), Prog.bind_run_ok (Prog.read_run _ _),
    Prog.bind_run_ok (now_run w)]
  rcases hv : heldPosition (w.desk.fold cfg) mint with - | v
  · exact .inl rfl
  · simp only
    split_ifs
    · exact .inl rfl
    · rcases hc : lastGoodValue cfg mint v w.mem with x | (- | valued)
      · exact .inl rfl
      · exact .inl rfl
      · exact .inr ⟨_, rfl⟩

lemma closePosition_cases (cfg : DeskConfig) (mint : Mint) (ticketId : TicketId)
    (reason : ExitReason) (curve : Option CurveSnapshot) (w : World) :
    (closePosition cfg mint ticketId reason curve w).2 = w ∨
      ∃ f, (closePosition cfg mint ticketId reason curve w).2 = (forceClose cfg f w).2 := by
  unfold closePosition
  rw [Prog.bind_run_ok (fold_run cfg w), Prog.bind_run_ok (Prog.read_run _ _)]
  rcases hv : heldPosition (w.desk.fold cfg) mint with - | v
  · exact .inl rfl
  · simp only
    rcases hc : liveValue cfg mint v curve w.mem with x | (- | valued)
    · exact .inl rfl
    · exact .inl rfl
    · set f : ForceClose :=
        { mint := mint
          reason := reason
          valued := valued
          source := cfg.source
          ticketId := if ticketId = [] then none else some ticketId } with hfc
      refine .inr ⟨f, ?_⟩
      show ((do
        let row ← forceClose cfg f
        pure (if row.isSome then CloseStatus.closed else .noPosition) :
          Prog World Exc CloseStatus) w).2 = _
      rcases hf : forceClose cfg f w with ⟨x | row, w'⟩
      · rw [Prog.bind_run_error hf]
      · rw [Prog.bind_run_ok hf]
        rfl

lemma abort_move (i : ℕ) : Move cfg s (.abort i) (s.abort cfg i) := by
  unfold abort
  split
  · rename_i hcall
    rcases resumePlace_cases cfg s i fun _ _ => some (Prog.raise .taskCancelled) with
      h | ⟨c, wait, m, hi, hm, h⟩
    · rw [h]
      exact .idle
    · obtain rfl := Option.some.inj hm
      rcases h with ⟨next, w, hr, -⟩ | ⟨o, w, own, hr, hd, hmem, hwait⟩
      · simp at hr
      · obtain rfl : s.world = w := (Prod.mk.inj hr).2
        have hl : ∀ o, s.world.mem.Leaves i o (leave c i own s.world.mem) := fun o =>
          leaves_leave c i own rfl (Finset.Subset.refl _) (fun x hx _ => hx)
            (Finset.Subset.refl _) fun x hx _ => hx
        cases wait with
        | curve0 size =>
          exact .ended i c (.inr ⟨size, hi⟩) (Desk.Quietly.consulted hd) (hmem ▸ hl _) hwait
        | sleep p q =>
          exact .dropped i c p q (.inl hi) (Desk.Quietly.consulted hd) (hmem ▸ hl _) hwait .aborted
        | curve1 p q =>
          exact .dropped i c p q (.inr hi) (Desk.Quietly.consulted hd) (hmem ▸ hl _) hwait .aborted
  · rename_i hcall
    exact .beside (waiting_setCall_none hcall rfl rfl _) (refl_of _ _)
  · rename_i hcall
    exact .beside (waiting_setCall_none hcall rfl rfl _) (refl_of _ _)
  · rename_i hcall
    exact .beside (waiting_setCall_none hcall rfl rfl _) (refl_of _ _)
  · exact .idle

lemma startMark_move (mint : Mint) (source : EventSource) :
    Move cfg s (.startMark mint source) (s.startMark cfg mint source) := by
  unfold startMark
  simp only
  split
  · exact .beside (waiting_addCall_none s rfl _) (refl_of _ _)
  · exact .beside (waiting_addCall_none s rfl _) (refl_of _ _)

lemma markCurve_move (i : ℕ) (curve : Option CurveSnapshot) :
    Move cfg s (.markCurve i curve) (s.markCurve cfg i curve) := by
  unfold markCurve
  split
  · rename_i hcall
    exact .beside (waiting_setCall_none hcall rfl rfl _) (markToMarket_beside _ _ _ _ _ _)
  · exact .idle

lemma startBook_move (source : EventSource) :
    Move cfg s (.startBook source) (s.startBook cfg source) := by
  unfold startBook
  simp only
  split_ifs
  · exact .beside (waiting_addCall_none s rfl _) (refl_of _ _)
  · exact .beside (waiting_addCall_none s rfl _) (nextBook_beside _ _)

lemma bookCurve_move (i : ℕ) (curve : Option CurveSnapshot) :
    Move cfg s (.bookCurve i curve) (s.bookCurve cfg i curve) := by
  unfold bookCurve
  split
  · rename_i b mint pos rest hcall
    have hb :=
      @priceOne_beside cfg (Action.foreign (.bookCurve i curve)) b mint pos rest curve s.world
    split
    · rename_i b' w hp
      rw [hp] at hb
      exact .beside (waiting_setCall_none hcall rfl rfl _) (trans_of _ hb (nextBook_beside _ _))
    · rename_i x w hp
      rw [hp] at hb
      exact .beside (waiting_setCall_none hcall rfl rfl _) hb
  · exact .idle

lemma startClose_move (mint : Mint) (ticketId : TicketId) (reason : ExitReason) :
    Move cfg s (.startClose mint ticketId reason) (s.startClose mint ticketId reason) := by
  unfold startClose
  split <;> rename_i hr <;>
    exact .beside (waiting_addCall_none s rfl _) ((closeStart_beside reason).run hr)

lemma closeCurve_move (i : ℕ) (curve : Option CurveSnapshot) :
    Move cfg s (.closeCurve i curve) (s.closeCurve cfg i curve) := by
  unfold closeCurve
  split
  · rename_i mint ticketId reason hcall
    exact closing_run (closePosition_cases cfg mint ticketId reason curve s.world) rfl rfl
      (waiting_setCall_none hcall rfl rfl _)
  · exact .idle

/-- A program of the breakers alone. -/
lemma breakers_beside {m : Desk → Prog BreakerSet.Bound Exc Unit}
    (h : ∀ d, Prog.Keeps BreakerSet.Grown (m d)) :
    Prog.Keeps (World.Beside F) (World.onDesk fun d => Desk.onBreakers (m d) d) :=
  beside_onDesk fun d => (Desk.onBreakers_quietly (h d) d).beside

lemma pollKillSources_quietly (source : EventSource) :
    Prog.Keeps Desk.Quietly (pollKillSources source) := by
  refine Prog.Keeps.bind (.modify fun d => Desk.quietly_memory d _ _ _) fun _ => ?_
  exact (pollKill_quietly source).bind fun _ => .pure _

lemma pollKillSources_beside (source : EventSource) :
    Prog.Keeps (World.Beside F) (World.onDesk (pollKillSources source)) :=
  beside_onDesk ((pollKillSources_quietly source).mono fun _ _ => Desk.Quietly.beside)

lemma aside_of_other (r : OtherRow) : r.row.Aside := by
  have hk := r.key_free
  have hp := r.payload_free
  constructor
  · cases hr : r.row.key <;> simp_all [Key.isTrade, Key.ofOrder]
  · cases hr : r.row.payload <;> simp_all [Payload.isTrade, Payload.ofOrder]

lemma env_move (e : EnvChange) :
    Move cfg s (.env e) (s.withDesk (e.apply s.world.desk)) := by
  cases e with
  | chain intact => exact .edited intact rfl rfl
  | _ => exact .beside rfl ⟨⟨.refl, le_rfl, rfl⟩, rfl, rfl, rfl⟩

/-- **Every step is one of the moves.** -/
theorem step_move (cfg : DeskConfig) (s : Sys) (a : Action) : Move cfg s a (s.step cfg a) := by
  cases a with
  | startPlace c => exact startPlace_move c
  | curve0 i curve latency dropped => exact curve0_move i curve latency dropped
  | wake i overran => exact wake_move i overran
  | curve1 i curve => exact curve1_move i curve
  | abort i => exact abort_move i
  | cancel order =>
    simp only [step, PumpGrok.cancel]
    split_ifs with h
    · exact .cancelled order h
    · exact .idle
  | startMark mint source => exact startMark_move mint source
  | markCurve i curve => exact markCurve_move i curve
  | startBook source => exact startBook_move source
  | bookCurve i curve => exact bookCurve_move i curve
  | startClose mint ticketId reason => exact startClose_move mint ticketId reason
  | closeCurve i curve => exact closeCurve_move i curve
  | graduation mint lastS lastT source =>
    exact closing_run (closeOnGraduation_cases cfg mint lastS lastT source s.world) rfl rfl rfl
  | blind mint source => exact closing_run (checkBlind_cases cfg mint source s.world) rfl rfl rfl
  | append other =>
    simp only [step]
    split_ifs with hn
    · refine .beside rfl ⟨⟨?_, le_rfl, rfl⟩, rfl, rfl, rfl⟩
      exact LedgerStore.grows_append fun _ => .mk other.row (aside_of_other other) hn (.inr rfl)
    · exact .idle
  | tick ts source =>
    exact .beside rfl (breakers_beside (fun d => BreakerSet.noteTick_grown _ _ _ _) s.world)
  | miss source =>
    exact .beside rfl (breakers_beside (fun d => BreakerSet.noteMiss_grown _ _ _) s.world)
  | pollKill source => exact .beside rfl (pollKillSources_beside source s.world)
  | verify =>
    exact .beside rfl (beside_onStore (fun _ => LedgerStore.grows_verify) s.world)
  | env e => exact env_move e

end Others

lemma written_consulted {cfg : DeskConfig} {s : Sys} {c : PlaceCall} {d : Desk} {order : ℕ}
    {dec : RiskDecision}
    (hwr : Written cfg c order (s.world.withDesk (drawnDesk s.world.desk)) dec d) :
    s.world.desk.Consulted cfg (c.checkCall cfg .accepted) d ∧
      s.world.desk.nextId + 2 ≤ d.nextId := by
  have hcheck := check_consulted cfg (c.checkCall cfg .accepted)
    (s.world.withDesk (drawnDesk s.world.desk)).desk
  rw [hwr.checked] at hcheck
  have hdrawn : s.world.desk.Consulted cfg (c.checkCall cfg .accepted) (drawnDesk s.world.desk) :=
    Desk.Quietly.consulted ⟨.refl, rfl, Nat.le_add_right _ _, rfl, rfl, rfl, rfl, rfl⟩
  exact ⟨hdrawn.trans hcheck, hcheck.ids⟩

lemma confirmed_consulted {cfg : DeskConfig} {c : PlaceCall} {p : Placed} {w : World}
    {dec : RiskDecision} {d : Desk}
    (h : Confirmed cfg c p w dec d) : w.desk.Consulted cfg (c.checkCall cfg .confirming) d := by
  have hd := check_consulted cfg (c.checkCall cfg .confirming) w.desk
  rwa [h.checked] at hd

section Rows

variable {cfg : DeskConfig} {c : PlaceCall}

lemma placedRows_isOrders {dec : RiskDecision} {order : ℕ} {ts : ℤ} {r : Row}
    (h : r ∈ placedRows cfg c dec order ts) : r.payload.isOrders = true := by
  unfold placedRows orderRows at h
  split at h
  · obtain rfl := List.mem_singleton.mp h
    rfl
  · simp only [List.mem_cons, List.not_mem_nil, or_false] at h
    rcases h with rfl | rfl <;> rfl

lemma boughtRows_isOrders {p : Placed} {q : BuyQuote} {curve : CurveSnapshot} {out1 : ℤ} {d : Desk}
    {r : Row} (h : r ∈ boughtRows cfg c p q curve out1 d) : r.payload.isOrders = true := by
  unfold boughtRows buyFillRows at h
  split_ifs at h
  · obtain rfl := List.mem_singleton.mp h
    rfl
  · simp only [List.mem_cons, List.not_mem_nil, or_false] at h
    rcases h with rfl | rfl <;> rfl

lemma soldRows_isOrders {p : Placed} {plan : SellPlan} {curve : CurveSnapshot} {v : PositionView}
    {gross1 : ℤ} {d : Desk} {r : Row} (h : r ∈ soldRows cfg c p plan curve v gross1 d) :
    r.payload.isOrders = true := by
  simp only [soldRows, sellRows] at h
  split_ifs at h
  · simp only [List.mem_cons, List.not_mem_nil, or_false] at h
    rcases h with rfl | rfl <;> rfl
  · obtain rfl := List.mem_singleton.mp h
    rfl

lemma forceCloseRows_isOrders {f : ForceClose} {v : PositionView} {order ref : ℕ} {ts : ℤ} {r : Row}
    (h : r ∈ forceCloseRows f v order ref ts) : r.payload.isOrders = true := by
  simp only [forceCloseRows, List.mem_cons, List.not_mem_nil, or_false] at h
  rcases h with rfl | rfl | rfl <;> rfl

end Rows

/-- **A step only adds rows**, those of an order or beside the orders, whatever it does to the mark
of the handle. -/
theorem Move.grows_by {cfg : DeskConfig} {s s' : Sys} {a : Action}
    {B : LedgerStore → List Row → Prop}
    (hside : ∀ st rows, AsideBatch a.foreign st rows → B st rows)
    (horder : ∀ st rows, (∀ r ∈ rows, r.payload.isOrders = true) → B st rows)
    (m : Move cfg s a s') : ∃ st b, s.store.Grows B st ∧ s'.store = { st with intact := b } := by
  have hengine : ∀ {st st' : LedgerStore}, st.Grows EngineRow st' → st.Grows B st' :=
    fun hg => hg.mono fun st rows h => hside st rows h.aside
  have hone : ∀ {st : LedgerStore}, s.store.Grows EngineRow st → ∀ {d : Desk}, d.store = st →
      ∀ {rows : List Row}, (∀ r ∈ rows, r.payload.isOrders = true) → d.store.Fresh rows →
      ∀ {d' : Desk}, Desk.Quietly { d with store := d.store.commit rows } d' →
      s'.world.desk = d' → ∃ st b, s.store.Grows B st ∧ s'.store = { st with intact := b } := by
    rintro st hg d rfl rows hr hf d' hq hd
    refine ⟨s'.store, s'.store.intact, ((hengine hg).commit hf (horder _ _ hr)).trans ?_, rfl⟩
    unfold store
    rw [hd]
    exact hengine hq.store
  cases m with
  | beside hw hb => exact ⟨_, s'.store.intact, hb.desk.store.mono hside, rfl⟩
  | edited intact hw hs =>
    refine ⟨s.store, intact, .refl, ?_⟩
    unfold store
    rw [hs]
    rfl
  | forced f v hw hm hv hf hd =>
    refine ⟨s'.store, s'.store.intact, ?_, rfl⟩
    unfold store
    rw [hd]
    exact LedgerStore.Grows.refl.commit hf (horder _ _ fun r => forceCloseRows_isOrders)
  | cancelled o ho => exact ⟨_, s.store.intact, .refl, rfl⟩
  | asked c dec hn hc hp hm hw =>
    have hcons := check_consulted cfg (c.checkCall cfg .accepted) s.world.desk
    rw [hc] at hcons
    exact ⟨_, s'.store.intact, hengine hcons.store, rfl⟩
  | ended i c hi hd hm hw => exact ⟨_, s'.store.intact, hengine hd.store, rfl⟩
  | refused i c reason detail hi hd ht hq hm hw =>
    refine hone hd.store rfl (fun r hr => ?_) (LedgerStore.fresh_singleton.mpr ht.2) hq rfl
    rw [List.mem_singleton.mp hr]
    rfl
  | @placed _ i c size dec seen quoted latency drop d hi hq hwr hs hw =>
    obtain ⟨hd, -⟩ := written_consulted hwr
    exact hone hd.store rfl (fun r => placedRows_isOrders) hwr.fresh (.refl _) (by rw [hs])
  | woke i c p q hi hc hs hw =>
    exact ⟨s.store, s.store.intact, .refl, congrArg (·.desk.store) hs⟩
  | rejected i c p q reason detail fig hi hd hid hfee ht hq hm hw =>
    refine hone hd.store rfl (fun r hr => ?_) (LedgerStore.fresh_singleton.mpr ht.2) hq rfl
    rw [List.mem_singleton.mp hr]
    rfl
  | dropped i c p q hi hd hm hw why => exact ⟨_, s'.store.intact, hengine hd.store, rfl⟩
  | @bought _ i c p quote curve1 curve dec q out1 d hi hcurve hdec hp hin hne hf hq hm hw =>
    have hcons := confirmed_consulted hdec
    exact hone hcons.store (d := { d with nextId := d.nextId + 1 }) rfl
      (fun r => boughtRows_isOrders) hf hq rfl
  | @sold _ i c p plan curve1 curve dec v gross1 d hi hcurve hdec hv hheld hp hin hf hq hm hw =>
    have hcons := confirmed_consulted hdec
    exact hone hcons.store (d := { d with nextId := d.nextId + 1 }) rfl
      (fun r => soldRows_isOrders) hf hq rfl

theorem Move.grows {cfg : DeskConfig} {s s' : Sys} {a : Action} (m : Move cfg s a s') :
    ∃ st b, s.store.Grows (fun _ _ => True) st ∧ s'.store = { st with intact := b } :=
  m.grows_by (fun _ _ _ => trivial) fun _ _ _ => trivial

end Sys

end PumpGrok
