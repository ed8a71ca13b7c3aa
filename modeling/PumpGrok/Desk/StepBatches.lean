import PumpGrok.Desk.Spending

/-!
What a step appends, with what its action had found. An order is placed on the desk that its
check has just left; a fill on the desk that the confirming evaluation of its order has just left,
since no cached decision answers for a held order. What these found is then true of the very rows
they are appended to.
-/

namespace PumpGrok

/-! ### Conditions on every batch -/

namespace LedgerStore

/-- Every batch meets a condition next to the rows before it. -/
def Each (R : List Event → List Payload → Prop) (st : LedgerStore) : Prop :=
  ∀ bs b, bs ++ [b] <+: st.txns → R bs.flatten (b.map (·.payload))

variable {R : List Event → List Payload → Prop} {st st' : LedgerStore}

lemma Each.commit {rows : List Row} (h : st.Each R) (hr : R st.read (rows.map (·.payload))) :
    (st.commit rows).Each R := by
  intro bs b hp
  rw [txns_commit] at hp
  rcases List.prefix_concat_iff.mp hp with he | hp'
  · obtain ⟨rfl, he'⟩ := List.append_inj' he rfl
    rw [List.singleton_inj.mp he', stamp_payloads]
    exact hr
  · exact h bs b hp'

end LedgerStore

/-! ### The batches of a step -/

/-- A batch that a step from `s` appends to `st`. -/
inductive StepBatch (cfg : DeskConfig) (s : Sys) (st : LedgerStore) : List Row → Prop
  | aside {F : Row → Prop} {rows : List Row} (h : AsideBatch F st rows) : StepBatch cfg s st rows
  | forced (f : ForceClose) (v : PositionView) (order ref : ℕ) (ts : ℤ) (hst : s.store = st)
      (hv : heldPosition (s.world.desk.fold cfg) f.mint = some v) :
      StepBatch cfg s st (forceCloseRows f v order ref ts)
  | refused (c : PlaceCall) (reason : Reason) (detail : Detail) (ts : ℤ) :
      StepBatch cfg s st [acceptedRefusal cfg c reason detail ts]
  | placed (i : ℕ) (c : PlaceCall) (size : ℤ) (dec : RiskDecision) (d : Desk) (hst : d.store = st)
      (hi : s.waiting i = some (c, .curve0 size))
      (hc : check cfg (c.checkCall cfg .accepted) (drawnDesk s.world.desk) = (.ok dec, d))
      (hp : dec.passed = true) :
      StepBatch cfg s st (placedRows cfg c dec s.world.desk.nextId d.now)
  | rejected (i : ℕ) (c : PlaceCall) (p : Placed) (q : Quoted) (reason : Reason) (detail : Detail)
      (fig : RejectFigures) (ts : ℤ) (hi : s.Holds i c p q) (hid : fig.orderId = some p.orderId) :
      StepBatch cfg s st [confirmingRefusal cfg c reason detail fig ts]
  | bought (i : ℕ) (c : PlaceCall) (p : Placed) (quote q : BuyQuote) (curve : CurveSnapshot)
      (out1 : ℤ) (dec : RiskDecision) (d : Desk) (hst : d.store = st)
      (hi : s.waiting i = some (c, .curve1 p (.buy quote))) (hside : c.request.side = .buy)
      (he : evaluate cfg (c.checkCall cfg .confirming) (keyedDesk s.world.desk) = (.ok dec, d))
      (hp : dec.passed = true) : StepBatch cfg s st (boughtRows cfg c p q curve out1 d)
  | sold (i : ℕ) (c : PlaceCall) (p : Placed) (plan : SellPlan) (curve : CurveSnapshot)
      (v : PositionView) (gross1 : ℤ) (dec : RiskDecision) (d : Desk) (hst : d.store = st)
      (hi : s.waiting i = some (c, .curve1 p (.sell plan)))
      (he : evaluate cfg (c.checkCall cfg .confirming) (keyedDesk s.world.desk) = (.ok dec, d))
      (hp : dec.passed = true) (hv : heldPosition (d.fold cfg) c.request.mint = some v) :
      StepBatch cfg s st (soldRows cfg c p plan curve v gross1 d)

lemma grows_stepBatch {cfg : DeskConfig} {s : Sys} {st st' : LedgerStore}
    (h : st.Grows EngineRow st') : st.Grows (StepBatch cfg s) st' :=
  h.mono fun _ _ hb => .aside (F := fun _ => False) hb.alone

section Cached

variable (cfg : DeskConfig) (c : PlaceCall) (p : Placed) (curve : CurveSnapshot) (d : Desk)
  (cache : Dict CacheKey RiskDecision)

/-- The rows of a fill read the desk's store and clock, and its next id. -/
lemma boughtRows_cached (q : BuyQuote) (out1 : ℤ) :
    boughtRows cfg c p q curve out1 { d with decisions := cache } =
      boughtRows cfg c p q curve out1 d := rfl

lemma soldRows_cached (plan : SellPlan) (v : PositionView) (gross1 : ℤ) :
    soldRows cfg c p plan curve v gross1 { d with decisions := cache } =
      soldRows cfg c p plan curve v gross1 d := rfl

end Cached

namespace Sys

section Steps

variable {cfg : DeskConfig} {s s' : Sys}

/-- **A held order's second check is evaluated**: no decision is cached under its key. -/
lemma Ordered.evaluated (h : s.Ordered) {i : ℕ} {c : PlaceCall} {p : Placed} {q : Quoted}
    (hi : s.Holds i c p q) {dec : RiskDecision} {d : Desk}
    (hdec : Confirmed cfg c p s.world dec d) :
    ∃ d', evaluate cfg (c.checkCall cfg .confirming) (keyedDesk s.world.desk) = (.ok dec, d') ∧
      ∃ cache, { d' with decisions := cache } = d := by
  have hnone : s.world.desk.decisions.get (keyOf (c.checkCall cfg .confirming) s.world.desk) =
      none := by
    by_contra hk
    obtain ⟨-, hne⟩ := h.consulted _ hk rfl
    exact hne i c p q hi rfl
  have hrun := hdec.checked
  rw [check_run, hnone] at hrun
  rcases he : evaluate cfg (c.checkCall cfg .confirming) (keyedDesk s.world.desk) with ⟨x | x, d'⟩
  · simp [he] at hrun
  · simp only [he] at hrun
    obtain ⟨hx, hd⟩ := Prod.mk.inj hrun
    obtain rfl := Except.ok.inj hx
    exact ⟨d', rfl, _, hd⟩

/-- A batch on a desk consulted before it, with quiet changes after. -/
lemma appends_one {d u : Desk} {rows : List Row} (hg : s.store.Grows EngineRow d.store)
    (hf : d.store.Fresh rows) (hb : StepBatch cfg s d.store rows)
    (hst : u.store = d.store.commit rows) (hq : u.Quietly s'.world.desk) :
    ∃ st b, s.store.Grows (StepBatch cfg s) st ∧ s'.store = { st with intact := b } := by
  refine ⟨s'.store, s'.store.intact, ((grows_stepBatch hg).commit hf hb).trans ?_, rfl⟩
  rw [← hst]
  exact grows_stepBatch hq.store

/-- **What a step appends.** -/
theorem Move.appends {a : Action} (h : s.Books cfg) (ho : s.Ordered) (m : Move cfg s a s') :
    ∃ st b, s.store.Grows (StepBatch cfg s) st ∧ s'.store = { st with intact := b } := by
  cases m with
  | beside hw hb =>
    exact ⟨_, s'.store.intact, hb.desk.store.mono fun _ _ hb => .aside hb, rfl⟩
  | edited intact hw hs =>
    refine ⟨s.store, intact, .refl, ?_⟩
    unfold store
    rw [hs]
    rfl
  | forced f v hw hm hv hf hd =>
    exact appends_one (d := s.world.desk) .refl hf (.forced f v _ _ _ rfl hv) (u := s'.world.desk)
      (by rw [hd]; rfl) (.refl _)
  | cancelled o ho => exact ⟨_, s.store.intact, .refl, rfl⟩
  | asked c dec hn hc hp hm hw =>
    have hd := check_consulted cfg (c.checkCall cfg .accepted) s.world.desk
    rw [hc] at hd
    exact ⟨_, s'.store.intact, grows_stepBatch hd.store, rfl⟩
  | ended i c hi hd hm hw => exact ⟨_, s'.store.intact, grows_stepBatch hd.store, rfl⟩
  | refused i c reason detail hi hd ht hq hm hw =>
    exact appends_one hd.store (LedgerStore.fresh_singleton.mpr ht.2) (.refused c reason detail _)
      rfl hq
  | @placed _ i c size dec seen quoted latency drop d hi hq hwr hs hw =>
    exact appends_one (written_consulted hwr).1.store hwr.fresh
      (.placed i c size dec d rfl hi hwr.checked hwr.passed) (u := s'.world.desk) (by rw [hs])
      (.refl _)
  | woke i c p q hi hc hs hw =>
    exact ⟨s.store, s.store.intact, .refl, congrArg (·.desk.store) hs⟩
  | rejected i c p q reason detail fig hi hd hid hfee ht hq hm hw =>
    exact appends_one hd.store (LedgerStore.fresh_singleton.mpr ht.2)
      (.rejected i c p q reason detail fig _ hi hid) rfl hq
  | dropped i c p q hi hd hm hw why => exact ⟨_, s'.store.intact, grows_stepBatch hd.store, rfl⟩
  | @bought _ i c p quote curve1 curve dec q out1 d hi hcurve hdec hp hin hne hf hq hm hw =>
    obtain ⟨d', he, cache, rfl⟩ := ho.evaluated (.inr hi) hdec
    refine appends_one (confirmed_consulted hdec).store hf ?_ rfl hq
    rw [boughtRows_cached]
    exact .bought i c p quote q curve out1 dec d' rfl hi (h.quoted i c p quote (.inr hi)).1 he
      hdec.passed
  | @sold _ i c p plan curve1 curve dec v gross1 d hi hcurve hdec hv hheld hp hin hf hq hm hw =>
    obtain ⟨d', he, cache, rfl⟩ := ho.evaluated (.inr hi) hdec
    refine appends_one (confirmed_consulted hdec).store hf ?_ rfl hq
    rw [soldRows_cached]
    exact .sold i c p plan curve v gross1 dec d' rfl hi he hdec.passed hv

end Steps

/-- What holds of every reachable state. -/
structure Reached (cfg : DeskConfig) (s : Sys) : Prop where
  books : s.Books cfg
  ordered : s.Ordered

lemma reached_after (cfg : DeskConfig) (now e₀ : ℤ) (killswitch : KillSwitch) (as : List Action) :
    (Runs.after (step cfg) (start now e₀ killswitch) as).Reached cfg :=
  ⟨books_after cfg now e₀ killswitch as, ordered_after cfg now e₀ killswitch as⟩

/-- **The invariant rule of a run's ledger**: what the batches of every step keep, its store
keeps, whatever its chain verifies as. -/
theorem ledger_invariant {I : LedgerStore → Prop} (cfg : DeskConfig)
    (hmark : ∀ st b, I st → I { st with inconsistent := b })
    (hintact : ∀ st b, I st → I { st with intact := b })
    (hcommit : ∀ s : Sys, s.Reached cfg → ∀ st rows, I st → s.store.txns <+: st.txns →
      st.Fresh rows → StepBatch cfg s st rows → I (st.commit rows))
    (now e₀ : ℤ) (killswitch : KillSwitch) (hstart : I (start now e₀ killswitch).store)
    (as : List Action) : I (Runs.after (step cfg) (start now e₀ killswitch) as).store := by
  refine (Runs.invariant (I := fun s : Sys => s.Reached cfg ∧ I s.store) (fun s a h => ?_)
    ⟨⟨books_start cfg now e₀ killswitch, ordered_start now e₀ killswitch⟩, hstart⟩ as).2
  obtain ⟨hs, hi⟩ := h
  have hmove := step_move cfg s a
  obtain ⟨st, b, hg, hst⟩ := hmove.appends hs.books hs.ordered
  refine ⟨⟨hmove.books hs.books, hmove.ordered hs.ordered⟩, ?_⟩
  rw [hst]
  refine hintact _ _ ?_
  refine (hg.invariant (I := fun st => I st ∧ s.store.txns <+: st.txns) ?_ ?_
    ⟨hi, List.prefix_refl _⟩).1
  · rintro st b ⟨h, hp⟩
    exact ⟨hmark st b h, hp⟩
  · rintro st rows ⟨h, hp⟩ hf hb
    refine ⟨hcommit s hs st rows h hp hf hb, ?_⟩
    rw [LedgerStore.txns_commit]
    exact hp.trans (List.prefix_append _ _)

/-- **Every batch of a run** meets a condition that the batches of steps meet. -/
theorem each_after {R : List Event → List Payload → Prop} (cfg : DeskConfig)
    (hr : ∀ s : Sys, s.Reached cfg → ∀ st rows, StepBatch cfg s st rows →
      R st.read (rows.map (·.payload)))
    (now e₀ : ℤ) (killswitch : KillSwitch) (as : List Action) :
    (Runs.after (step cfg) (start now e₀ killswitch) as).store.Each R := by
  refine ledger_invariant (I := LedgerStore.Each R) cfg (fun _ _ h => h) (fun _ _ h => h)
    (fun s hs st rows h _ _ hb => h.commit (hr s hs st rows hb)) now e₀ killswitch ?_ as
  intro bs b hp
  have hnil : (start now e₀ killswitch).store.txns = [] := rfl
  rw [hnil, List.prefix_nil] at hp
  simp at hp

end Sys

/-! ### Buys among the batches -/

lemma Payload.isBuyFill_of_aside {p : Payload} (h : p.ofOrder = false) : p.isBuyFill = false := by
  cases p <;> simp_all [ofOrder, isBuyFill]

/-- The buy fills of a step are those of its bought batch. -/
lemma StepBatch.buys {cfg : DeskConfig} {s : Sys} {st : LedgerStore} {rows : List Row}
    (h : StepBatch cfg s st rows) :
    (∀ r ∈ rows, r.payload.isBuyFill = false) ∨ ∃ i c p quote q curve out1 dec d,
      d.store = st ∧ s.waiting i = some (c, .curve1 p (.buy quote)) ∧ c.request.side = .buy ∧
      evaluate cfg (c.checkCall cfg .confirming) (keyedDesk s.world.desk) = (.ok dec, d) ∧
      dec.passed = true ∧ rows = boughtRows cfg c p q curve out1 d := by
  have hone : ∀ {r : Row}, r.payload.isBuyFill = false →
      ∀ x ∈ [r], x.payload.isBuyFill = false := fun hr x hx => by rwa [List.mem_singleton.mp hx]
  cases h with
  | aside h =>
    cases h with
    | mk row ha hn => exact .inl (hone (Payload.isBuyFill_of_aside ha.payload))
  | forced f v order ref ts hst hv =>
    refine .inl fun r hr => ?_
    simp only [forceCloseRows, List.mem_cons, List.not_mem_nil, or_false] at hr
    rcases hr with rfl | rfl | rfl <;> rfl
  | refused c reason detail ts => exact .inl (hone rfl)
  | placed i c size dec d hst hi hc hp =>
    refine .inl fun r hr => ?_
    rcases LedgerStore.mem_placedRows hr with rfl | ⟨approval, id, rfl⟩ <;> rfl
  | rejected i c p q reason detail fig ts hi hid => exact .inl (hone rfl)
  | bought i c p quote q curve out1 dec d hst hi hside he hp =>
    exact .inr ⟨i, c, p, quote, q, curve, out1, dec, d, hst, hi, hside, he, hp, rfl⟩
  | sold i c p plan curve v gross1 dec d hst hi he hp hv =>
    refine .inl fun r hr => ?_
    simp only [soldRows, sellRows] at hr
    split_ifs at hr
    · simp only [List.mem_cons, List.not_mem_nil, or_false] at hr
      rcases hr with rfl | rfl <;> rfl
    · rw [List.mem_singleton.mp hr]
      rfl

end PumpGrok
