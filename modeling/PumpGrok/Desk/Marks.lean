import PumpGrok.Desk.Orders
import PumpGrok.Ledger.Units
import PumpGrok.Ledger.Valuation

/-!
Marks over runs. A mark reads the ledger once, then waits for its curves, and its row is computed
from what it read first: next to the ledger it was read from the row states the fold's equity, up
to the positions never marked, and it values the units held when nothing traded in between.
-/

namespace PumpGrok

/-- A mark while it waits for a curve: of its one mint, or of the next mint of the book. -/
inductive Marking where
  | one (mint : Mint) (source : EventSource) (state : LedgerState) (pos : PositionView)
  | book (b : BookMark) (mint : Mint) (pos : PositionView) (rest : List (Mint × PositionView))

def Call.marking : Call → Option Marking
  | .mark mint source (.waiting state pos) => some (.one mint source state pos)
  | .book (.waiting b mint pos rest) => some (.book b mint pos rest)
  | _ => none

/-- A reading that can price a mark. -/
def usable (curve : Option CurveSnapshot) : Option CurveSnapshot :=
  curve.filter fun c => !c.complete

namespace Marking

/-- The state the mark read. -/
def state : Marking → LedgerState
  | .one _ _ state _ => state
  | .book b _ _ _ => b.state

/-- The mint whose curve it waits for. -/
def mint : Marking → Mint
  | .one mint _ _ _ => mint
  | .book _ mint _ _ => mint

/-- The mints priced once a reading has come. -/
def priced (curve : Option CurveSnapshot) (k : Marking) : List Mint :=
  (match k with
    | .one _ _ _ _ => []
    | .book b _ _ _ => b.marks.map Prod.fst) ++ ((usable curve).map fun _ => k.mint).toList

/-- No reading is left after this one. -/
def last : Marking → Bool
  | .one _ _ _ _ => true
  | .book _ _ _ rest => rest.isEmpty

end Marking

/-! ### Readings -/

/-- What a book mark has priced so far, from readings of `H`. -/
structure Pricing (fees : FeeModel) (H : Mint → CurveSnapshot → Prop)
    (done : List (Mint × PositionView)) (values : List (Mint × ℤ)) (marks : List (Mint × Mark)) :
    Prop where
  values : values = done.map fun x => (x.1, statedValue marks x)
  keys : (marks.map Prod.fst).Sublist (done.map Prod.fst)
  priced : ∀ m k, (m, k) ∈ marks → ∃ c pos, (m, pos) ∈ done ∧ H m c ∧
    liquidation fees c pos.tokenUnits = .ok (k.mtmLamports, k.venueFeeLamports)

section Pricing

variable {fees : FeeModel} {H H' : Mint → CurveSnapshot → Prop} {done : List (Mint × PositionView)}
  {values : List (Mint × ℤ)} {marks : List (Mint × Mark)}

lemma Pricing.mono (h : Pricing fees H done values marks) (hh : ∀ m c, H m c → H' m c) :
    Pricing fees H' done values marks where
  values := h.values
  keys := h.keys
  priced m k hm := by
    obtain ⟨c, pos, hd, hc, hl⟩ := h.priced m k hm
    exact ⟨c, pos, hd, hh m c hc, hl⟩

/-- A mint with no usable curve keeps its last mark. -/
lemma Pricing.kept (h : Pricing fees H done values marks) {m : Mint} {pos : PositionView}
    (hm : m ∉ done.map Prod.fst) :
    Pricing fees H (done ++ [(m, pos)]) (values ++ [(m, pos.lastMtmLamports)]) marks where
  values := by
    have hget : AssocList.get m marks = none :=
      AssocList.get_eq_none_iff.mpr fun hk => hm (h.keys.subset hk)
    simp [h.values, statedValue, hget]
  keys := by
    rw [List.map_append]
    exact h.keys.trans (List.sublist_append_left _ _)
  priced k mk hk := by
    obtain ⟨c, p, hd, hc, hl⟩ := h.priced k mk hk
    exact ⟨c, p, List.mem_append_left _ hd, hc, hl⟩

/-- A mint priced by a reading. -/
lemma Pricing.read (h : Pricing fees H done values marks) {m : Mint} {pos : PositionView}
    {c : CurveSnapshot} {mk : Mark} (hm : m ∉ done.map Prod.fst) (hc : H m c)
    (hl : liquidation fees c pos.tokenUnits = .ok (mk.mtmLamports, mk.venueFeeLamports)) :
    Pricing fees H (done ++ [(m, pos)]) (values ++ [(m, mk.mtmLamports)]) (marks ++ [(m, mk)]) where
  values := by
    have hget : AssocList.get m marks = none :=
      AssocList.get_eq_none_iff.mpr fun hk => hm (h.keys.subset hk)
    have hold : ∀ x ∈ done, (x.1, statedValue (marks ++ [(m, mk)]) x) =
        (x.1, statedValue marks x) := by
      intro x hx
      have hne : m ≠ x.1 := fun e => hm (e ▸ List.mem_map_of_mem hx)
      simp [statedValue, AssocList.get_append, AssocList.get, hne]
    rw [List.map_append, List.map_congr_left hold, h.values]
    simp [statedValue, AssocList.get_append, AssocList.get, hget]
  keys := by
    rw [List.map_append, List.map_append]
    exact h.keys.append (List.Sublist.refl _)
  priced k mk' hk := by
    rcases List.mem_append.mp hk with hk | hk
    · obtain ⟨c', p, hd, hc', hl'⟩ := h.priced k mk' hk
      exact ⟨c', p, List.mem_append_left _ hd, hc', hl'⟩
    · obtain ⟨rfl, rfl⟩ := Prod.mk.inj (List.mem_singleton.mp hk)
      exact ⟨c, pos, List.mem_append_right _ (by simp), hc, hl⟩

end Pricing

/-! ### Rows -/

section Rows

variable {state : LedgerState}

lemma sumOthers_eq (state : LedgerState) (mint : Mint) (f : PositionView → ℤ) :
    sumOthers state mint f =
      openSum state.positions fun x => if x.1 = mint then 0 else f x.2 := by
  unfold sumOthers openSum
  induction state.positions.entries with
  | nil => rfl
  | cons x r ih =>
    by_cases hm : x.1 = mint <;> by_cases hu : 0 < x.2.tokenUnits <;> simp [hm, hu] at ih ⊢ <;>
      exact ih

lemma markable_some {mint : Mint} {pos : PositionView} (h : markable state mint = some pos) :
    state.positions.get mint = some pos ∧ 0 < pos.tokenUnits := by
  obtain ⟨hg, hp⟩ := Option.filter_eq_some_iff.mp h
  exact ⟨hg, by simpa using (Bool.and_eq_true_iff.mp hp).1⟩

/-- The row of a single mark states its figures. -/
lemma markRow_states {mint : Mint} {pos : PositionView} (h : markable state mint = some pos)
    (value venue : ℤ) (price : ℚ) (ts : ℤ) :
    MarkToMarket.States
      { tsSource := ts
        cashLamports := state.cashLamports
        equityLamports := state.cashLamports + (value + sumOthers state mint (·.lastMtmLamports))
        unrealizedLamports :=
          value + sumOthers state mint (·.lastMtmLamports) -
            (pos.costBasisLamports + sumOthers state mint (·.costBasisLamports))
        prices :=
          [(mint, { mtmLamports := value, venueFeeLamports := venue, spot := price, ts := none })] }
      state := by
  obtain ⟨hg, hu⟩ := markable_some h
  set prices : List (Mint × Mark) :=
    [(mint, { mtmLamports := value, venueFeeLamports := venue, spot := price, ts := none })]
  have hat : statedValue prices (mint, pos) = value := by simp [prices, statedValue, AssocList.get]
  have hvalue : openSum state.positions (statedValue prices) =
      value + sumOthers state mint (·.lastMtmLamports) := by
    rw [sumOthers_eq, openSum_differ (g := fun x => if x.1 = mint then 0 else x.2.lastMtmLamports)
      hg hu, hat]
    · simp only [if_true]
      ring
    · intro x _ hx _
      simp [prices, statedValue, AssocList.get, hx, Ne.symm hx]
  have hbasis : openSum state.positions (fun x => x.2.costBasisLamports) =
      pos.costBasisLamports + sumOthers state mint (·.costBasisLamports) := by
    rw [sumOthers_eq, openSum_differ (g := fun x => if x.1 = mint then 0 else x.2.costBasisLamports)
      hg hu]
    · simp only [if_true]
      ring
    · intro x _ hx _
      simp [hx]
  constructor
  · rw [hvalue]
  · rw [openSum_sub, hvalue, hbasis]

lemma sum_markableAll (hp : Plain state.positions) (f : Mint × PositionView → ℤ) :
    ((markableAll state).map f).sum = openSum state.positions f := by
  have hfrozen : ∀ x ∈ state.positions.entries, x.2.mtmFrozen = false :=
    fun x hx => (hp x.1 x.2 ((Dict.mem_entries_iff _ _ _).mp hx)).1
  unfold markableAll openSum
  generalize state.positions.entries = l at hfrozen ⊢
  induction l with
  | nil => rfl
  | cons x r ih =>
    have hx := hfrozen x (by simp)
    have hr := ih fun y hy => hfrozen y (List.mem_cons_of_mem _ hy)
    by_cases hu : 0 < x.2.tokenUnits <;> simp [hu, hx] at hr ⊢ <;> exact hr

/-- The row of a book mark states its figures, once every held mint has its value. -/
lemma bookRow_states {fees : FeeModel} {H : Mint → CurveSnapshot → Prop} {b : BookMark}
    (hp : Plain b.state.positions) (hh : b.held = markableAll b.state)
    (h : Pricing fees H b.held b.values b.marks) (ts : ℤ) :
    MarkToMarket.States
      { tsSource := ts
        cashLamports := b.state.cashLamports
        equityLamports := b.state.cashLamports + (b.values.map Prod.snd).sum
        unrealizedLamports :=
          (b.values.map Prod.snd).sum - (b.held.map fun x => x.2.costBasisLamports).sum
        prices := b.marks } b.state := by
  have hvalues : (b.values.map Prod.snd).sum = openSum b.state.positions (statedValue b.marks) := by
    rw [h.values, List.map_map, ← sum_markableAll hp, hh]
    rfl
  constructor
  · simp only [hvalues]
  · simp only [hvalues, openSum_sub]
    rw [hh, sum_markableAll hp]

end Rows

/-! ### Mark calls over a step -/

namespace Sys

/-- The reading a step brings to a waiting mark. -/
def markStep (s : Sys) : Action → Option (ℕ × Marking × Option CurveSnapshot)
  | .markCurve i curve =>
    match s.look Call.marking i with
    | some (.one mint source state pos) => some (i, .one mint source state pos, curve)
    | _ => none
  | .bookCurve i curve =>
    match s.look Call.marking i with
    | some (.book b mint pos rest) => some (i, .book b mint pos rest, curve)
    | _ => none
  | _ => none

/-- The readings a step hands to marks: the call, the mint, and its curve. -/
def hears (s : Sys) (a : Action) : List (ℕ × Mint × CurveSnapshot) :=
  match s.markStep a with
  | some (i, k, some curve) => [(i, k.mint, curve)]
  | _ => []

/-- The mark row a step appends, when that is what it appends. -/
def markAppended (cfg : DeskConfig) (s : Sys) (a : Action) : Option MarkToMarket :=
  match (s.step cfg a).store.read.drop s.store.count with
  | [e] =>
    match e.payload with
    | .markToMarket p => some p
    | _ => none
  | _ => none

/-- The readings of a run. -/
def heard (cfg : DeskConfig) : Sys → List Action → List (ℕ × Mint × CurveSnapshot)
  | _, [] => []
  | s, a :: as => s.hears a ++ heard cfg (step cfg s a) as

/-- How a mark call comes to wait as it does after a step. -/
inductive MarkMove (cfg : DeskConfig) (s : Sys) (i : ℕ) (a : Action) : Marking → Prop
  | stays (k : Marking) (h : s.look Call.marking i = some k) : MarkMove cfg s i a k
  | starts (mint : Mint) (source : EventSource) (pos : PositionView)
      (h : markable (s.world.desk.fold cfg) mint = some pos) :
      MarkMove cfg s i a (.one mint source (s.world.desk.fold cfg) pos)
  | opens (b : BookMark) (mint : Mint) (pos : PositionView) (rest : List (Mint × PositionView))
      (hs : b.state = s.world.desk.fold cfg) (hh : b.held = markableAll b.state)
      (hr : b.held = (mint, pos) :: rest) (hv : b.values = []) (hm : b.marks = []) :
      MarkMove cfg s i a (.book b mint pos rest)
  | reads (b b' : BookMark) (mint next : Mint) (pos pos' : PositionView)
      (rest : List (Mint × PositionView)) (curve : Option CurveSnapshot) (w : World)
      (h : s.look Call.marking i = some (.book b mint pos ((next, pos') :: rest)))
      (ha : a = .bookCurve i curve)
      (hp : priceOne cfg b mint pos ((next, pos') :: rest) curve s.world = (.ok b', w)) :
      MarkMove cfg s i a (.book b' next pos' rest)

/-- Pricing a mint leaves the desk alone. -/
lemma priceOne_desk (cfg : DeskConfig) (b : BookMark) (mint : Mint) (pos : PositionView)
    (rest : List (Mint × PositionView)) (curve : Option CurveSnapshot) :
    Prog.Keeps (Prog.Same World.desk) (priceOne cfg b mint pos rest curve) := by
  have hof : ∀ {α : Type} (e : Except Exc α),
      Prog.Keeps (Prog.Same World.desk) (World.ofExcept e) := by
    rintro α (x | a)
    · exact .raise x
    · exact .pure a
  unfold priceOne
  split
  · exact .pure _
  · refine (hof _).bind fun v => (hof _).bind fun price => ?_
    exact Prog.Keeps.bind (.modify fun w => rfl) fun _ => .pure _

lemma priceOne_pending {cfg : DeskConfig} {b b' : BookMark} {mint : Mint} {pos : PositionView}
    {rest : List (Mint × PositionView)} {curve : Option CurveSnapshot} {w w' : World}
    (h : priceOne cfg b mint pos rest curve w = (.ok b', w')) :
    b'.pending = rest ∧ b'.state = b.state ∧ b'.held = b.held ∧
      ((usable curve = none ∧ b'.marks = b.marks ∧
          b'.values = b.values ++ [(mint, pos.lastMtmLamports)]) ∨
        ∃ c mk, usable curve = some c ∧
          liquidation cfg.fees c pos.tokenUnits = .ok (mk.mtmLamports, mk.venueFeeLamports) ∧
          b'.marks = b.marks ++ [(mint, mk)] ∧
          b'.values = b.values ++ [(mint, mk.mtmLamports)]) := by
  unfold priceOne at h
  rcases hu : usable curve with - | c
  · rw [show curve.filter (fun c => !c.complete) = none from hu] at h
    obtain ⟨rfl, rfl⟩ := (Prod.mk.inj h).imp_left Except.ok.inj
    exact ⟨rfl, rfl, rfl, .inl ⟨rfl, rfl, rfl⟩⟩
  · rw [show curve.filter (fun c => !c.complete) = some c from hu] at h
    simp only at h
    obtain ⟨v, w₁, hv, hrest⟩ := Prog.bind_ok_iff.mp h
    obtain ⟨hliq, rfl⟩ := ofExcept_ok_iff.mp hv
    obtain ⟨price, w₂, hprice, hlast⟩ := Prog.bind_ok_iff.mp hrest
    obtain ⟨-, rfl⟩ := ofExcept_ok_iff.mp hprice
    obtain ⟨rfl, rfl⟩ := (Prod.mk.inj hlast).imp_left Except.ok.inj
    exact ⟨rfl, rfl, rfl, .inr ⟨c, _, rfl, hliq, rfl, rfl⟩⟩

/-- The payload of the row a mark appends after its last reading. -/
inductive RowOf (cfg : DeskConfig) (w : World) (curve : Option CurveSnapshot) :
    Marking → MarkToMarket → Prop
  | one (mint : Mint) (source : EventSource) (state : LedgerState) (pos : PositionView)
      (c : CurveSnapshot) (value venue : ℤ) (price : ℚ) (ts : ℤ) (hu : usable curve = some c)
      (hl : liquidation cfg.fees c pos.tokenUnits = .ok (value, venue)) :
      RowOf cfg w curve (.one mint source state pos)
        { tsSource := ts
          cashLamports := state.cashLamports
          equityLamports := state.cashLamports + (value + sumOthers state mint (·.lastMtmLamports))
          unrealizedLamports :=
            value + sumOthers state mint (·.lastMtmLamports) -
              (pos.costBasisLamports + sumOthers state mint (·.costBasisLamports))
          prices :=
            [(mint,
              { mtmLamports := value, venueFeeLamports := venue, spot := price, ts := none })] }
  | book (b b' : BookMark) (mint : Mint) (pos : PositionView) (w' : World) (ts : ℤ)
      (hp : priceOne cfg b mint pos [] curve w = (.ok b', w')) :
      RowOf cfg w curve (.book b mint pos [])
        { tsSource := ts
          cashLamports := b'.state.cashLamports
          equityLamports := b'.state.cashLamports + (b'.values.map Prod.snd).sum
          unrealizedLamports :=
            (b'.values.map Prod.snd).sum - (b'.held.map fun x => x.2.costBasisLamports).sum
          prices := b'.marks }

/-- An append leaves the store alone, or commits its row. -/
lemma append_store (row : Row) (w : World) :
    (World.onStore (LedgerStore.append row) w).2.desk.store = w.desk.store ∨
      (World.onStore (LedgerStore.append row) w).2.desk.store = w.desk.store.commit [row] := by
  rcases ha : LedgerStore.append row w.desk.store with ⟨x | e, st⟩
  · obtain ⟨rfl, -⟩ := LedgerStore.append_error_iff.mp ha
    rw [onStore_run ha]
    exact .inl rfl
  · obtain ⟨-, -, -, rfl⟩ := LedgerStore.append_ok_iff.mp ha
    rw [onStore_run ha]
    exact .inr rfl

/-- What a program leaves of the store after it has appended a row. -/
lemma append_then {β : Type} (row : Row) (f : Event → Prog World Exc β)
    (hf : ∀ e w, (f e w).2.desk.store = w.desk.store) (w : World) :
    ((World.onStore (LedgerStore.append row) >>= f) w).2.desk.store = w.desk.store ∨
      ((World.onStore (LedgerStore.append row) >>= f) w).2.desk.store =
        w.desk.store.commit [row] := by
  have h := append_store row w
  rcases hr : World.onStore (LedgerStore.append row) w with ⟨x | e, w'⟩
  · rw [Prog.bind_run_error hr]
    rwa [hr] at h
  · rw [Prog.bind_run_ok hr, hf]
    rwa [hr] at h

lemma markToMarket_store (cfg : DeskConfig) (mint : Mint) (source : EventSource)
    (state : LedgerState) (pos : PositionView) (curve : Option CurveSnapshot) (w : World) :
    (markToMarket cfg mint source state pos curve w).2.desk.store = w.desk.store ∨
      ∃ row p, row.payload = .markToMarket p ∧ RowOf cfg w curve (.one mint source state pos) p ∧
        (markToMarket cfg mint source state pos curve w).2.desk.store =
          w.desk.store.commit [row] := by
  unfold markToMarket
  rcases curve with - | c
  · exact .inl rfl
  · simp only
    split_ifs with hc
    · exact .inl rfl
    · have hu : usable (some c) = some c := by simp [usable, hc]
      rcases hl : liquidation cfg.fees c pos.tokenUnits with x | ⟨value, venue⟩
      · exact .inl rfl
      · rcases hs : spot c.sLamports c.tUnits with x | price
        · exact .inl rfl
        · have := append_then
            (markRow state mint pos value venue price source w.desk.now)
            (fun row => do
              World.remember fun a =>
                { a with
                  lastPriceTs := a.lastPriceTs.set mint w.desk.now
                  lastReserves := a.lastReserves.set mint (c.sLamports, c.tUnits) }
              pure (some row)) (fun _ _ => rfl) w
          refine this.imp id fun h => ⟨_, _, rfl, ?_, h⟩
          exact .one mint source state pos c value venue price w.desk.now hu hl

lemma marking_nextBook {b : BookMark} {w : World} {k : Marking}
    (h : Call.marking (.book (nextBook b w).1) = some k) :
    ∃ mint pos rest, b.pending = (mint, pos) :: rest ∧ k = .book b mint pos rest := by
  unfold nextBook at h
  rcases hb : b.pending with - | ⟨⟨mint, pos⟩, rest⟩
  · simp [hb, Call.marking] at h
  · simp only [hb, Call.marking, Option.some.injEq] at h
    exact ⟨mint, pos, rest, rfl, h.symm⟩

lemma markMove_resume (cfg : DeskConfig) {s : Sys} {j : ℕ} {a : Action} {k : Marking} (i : ℕ)
    (stretch : PlaceCall → Wait → Option (Prog World Exc Next))
    (h : (s.resumePlace cfg i stretch).look Call.marking j = some k) : MarkMove cfg s j a k := by
  unfold resumePlace at h
  split at h
  · split at h
    · exact .stays k h
    · rcases look_setCall h with ⟨-, hc⟩ | ⟨-, hc⟩
      · simp [Call.marking] at hc
      · exact .stays k hc
  · exact .stays k h

/-- **A step** moves a mark call in one of these ways. -/
theorem step_marking (cfg : DeskConfig) {s : Sys} {i : ℕ} {a : Action} {k : Marking}
    (h : (s.step cfg a).look Call.marking i = some k) : MarkMove cfg s i a k := by
  -- a call set or added that is no waiting mark
  have hset : ∀ {j : ℕ} {c : Call} {w : World}, c.marking = none →
      (s.setCall j c w).look Call.marking i = some k → MarkMove cfg s i a k := by
    intro j c w hc hl
    rcases look_setCall hl with ⟨-, hk⟩ | ⟨-, hk⟩
    · rw [hc] at hk
      simp at hk
    · exact .stays k hk
  have hadd : ∀ {c : Call} {w : World}, c.marking = none →
      (s.addCall c w).look Call.marking i = some k → MarkMove cfg s i a k := by
    intro c w hc hl
    rcases look_addCall hl with ⟨-, hk⟩ | hk
    · rw [hc] at hk
      simp at hk
    · exact .stays k hk
  cases a with
  | startPlace c => exact hadd rfl h
  | curve0 j curve latency dropped => exact markMove_resume cfg j _ h
  | wake j overran => exact markMove_resume cfg j _ h
  | curve1 j curve => exact markMove_resume cfg j _ h
  | abort j =>
    simp only [step, abort] at h
    split at h
    · exact markMove_resume cfg j _ h
    · exact hset rfl h
    · exact hset rfl h
    · exact hset rfl h
    · exact .stays k h
  | cancel o => exact .stays k h
  | startMark mint source =>
    simp only [step, startMark] at h
    split at h
    · exact hadd rfl h
    · rename_i pos hpos
      rcases look_addCall h with ⟨-, hk⟩ | hk
      · obtain rfl := Option.some.inj hk
        exact .starts mint source pos hpos
      · exact .stays k hk
  | markCurve j curve =>
    simp only [step, markCurve] at h
    split at h
    · exact hset rfl h
    · exact .stays k h
  | startBook source =>
    simp only [step, startBook] at h
    split_ifs at h
    · exact hadd rfl h
    · rcases look_addCall h with ⟨-, hk⟩ | hk
      · obtain ⟨mint, pos, rest, hp, rfl⟩ := marking_nextBook hk
        exact .opens _ mint pos rest rfl rfl hp rfl rfl
      · exact .stays k hk
  | bookCurve j curve =>
    simp only [step, bookCurve] at h
    split at h
    · rename_i b mint pos rest hcall
      split at h
      · rename_i b' w hp
        rcases look_setCall h with ⟨rfl, hk⟩ | ⟨-, hk⟩
        · obtain ⟨next, pos', rest', hpend, rfl⟩ := marking_nextBook hk
          have hrest : rest = (next, pos') :: rest' := (priceOne_pending hp).1.symm.trans hpend
          subst hrest
          refine .reads b b' mint next pos pos' rest' curve w ?_ rfl hp
          exact Option.bind_eq_some_iff.mpr ⟨_, hcall, rfl⟩
        · exact .stays k hk
      · exact hset rfl h
    · exact .stays k h
  | startClose mint ticketId reason =>
    simp only [step, startClose] at h
    split at h <;> exact hadd rfl h
  | closeCurve j curve =>
    simp only [step, closeCurve] at h
    split at h
    · exact hset rfl h
    · exact .stays k h
  | graduation mint lastS lastT source => exact .stays k h
  | blind mint source => exact .stays k h
  | append other =>
    simp only [step] at h
    split_ifs at h <;> exact .stays k h
  | tick ts source => exact .stays k h
  | miss source => exact .stays k h
  | pollKill source => exact .stays k h
  | verify => exact .stays k h
  | env e => exact .stays k h

lemma appendMarkRow_store (b : BookMark) (w : World) :
    (appendMarkRow b w).2.desk.store = w.desk.store ∨
      (appendMarkRow b w).2.desk.store = w.desk.store.commit [bookRow b w.desk.now] := by
  unfold appendMarkRow
  rw [Prog.bind_run_ok (now_run w), Prog.bind_run_ok (Prog.read_run _ _)]
  split_ifs
  · exact .inl rfl
  · exact append_then (bookRow b w.desk.now) (fun row => pure (some row)) (fun _ _ => rfl) w

lemma look_one {s : Sys} {i : ℕ} {mint : Mint} {source : EventSource} {state : LedgerState}
    {pos : PositionView} (h : s.look Call.marking i = some (.one mint source state pos)) :
    s.calls[i]? = some (.mark mint source (.waiting state pos)) := by
  obtain ⟨call, hc, hk⟩ := Option.bind_eq_some_iff.mp h
  unfold Call.marking at hk
  split at hk
  · obtain ⟨rfl, rfl, rfl, rfl⟩ := Marking.one.inj (Option.some.inj hk)
    exact hc
  · simp at hk
  · simp at hk

lemma look_book {s : Sys} {i : ℕ} {b : BookMark} {mint : Mint} {pos : PositionView}
    {rest : List (Mint × PositionView)}
    (h : s.look Call.marking i = some (.book b mint pos rest)) :
    s.calls[i]? = some (.book (.waiting b mint pos rest)) := by
  obtain ⟨call, hc, hk⟩ := Option.bind_eq_some_iff.mp h
  unfold Call.marking at hk
  split at hk
  · simp at hk
  · obtain ⟨rfl, rfl, rfl, rfl⟩ := Marking.book.inj (Option.some.inj hk)
    exact hc
  · simp at hk

lemma markStep_look {s : Sys} {a : Action} {i : ℕ} {k : Marking} {curve : Option CurveSnapshot}
    (h : s.markStep a = some (i, k, curve)) :
    s.look Call.marking i = some k ∧ ((∃ mint source state pos, k = .one mint source state pos ∧
        a = .markCurve i curve) ∨ ∃ b mint pos rest, k = .book b mint pos rest ∧
        a = .bookCurve i curve) := by
  cases a with
  | markCurve j c =>
    simp only [markStep] at h
    split at h
    · rename_i mint source state pos hl
      obtain ⟨rfl, rfl, rfl⟩ := Option.some.inj h
      exact ⟨hl, .inl ⟨mint, source, state, pos, rfl, rfl⟩⟩
    · simp at h
  | bookCurve j c =>
    simp only [markStep] at h
    split at h
    · rename_i b mint pos rest hl
      obtain ⟨rfl, rfl, rfl⟩ := Option.some.inj h
      exact ⟨hl, .inr ⟨b, mint, pos, rest, rfl, rfl⟩⟩
    · simp at h
  | _ => simp [markStep] at h

/-- **A reading** appends nothing, or the row of its mark. -/
theorem markStep_store (cfg : DeskConfig) {s : Sys} {a : Action} {i : ℕ} {k : Marking}
    {curve : Option CurveSnapshot} (h : s.markStep a = some (i, k, curve)) :
    (s.step cfg a).store = s.store ∨
      ∃ row p, row.payload = .markToMarket p ∧ RowOf cfg s.world curve k p ∧
        (s.step cfg a).store = s.store.commit [row] := by
  obtain ⟨hl, ⟨mint, source, state, pos, rfl, rfl⟩ | ⟨b, mint, pos, rest, rfl, rfl⟩⟩ :=
    markStep_look h
  · have hcall := look_one hl
    have hs : s.step cfg (.markCurve i curve) = s.setCall i
        (.mark mint source (.finished (markToMarket cfg mint source state pos curve s.world).1))
        (markToMarket cfg mint source state pos curve s.world).2 := by
      simp only [step, markCurve, hcall]
    rw [hs]
    exact markToMarket_store cfg mint source state pos curve s.world
  · have hcall := look_book hl
    have hdesk := priceOne_desk cfg b mint pos rest curve s.world
    rcases hp : priceOne cfg b mint pos rest curve s.world with ⟨x | b', w⟩
    · rw [hp] at hdesk
      refine .inl ?_
      simp only [step, bookCurve, hcall, hp]
      exact congrArg Desk.store hdesk
    · rw [hp] at hdesk
      have hw : w.desk = s.world.desk := hdesk
      have hs : (s.step cfg (.bookCurve i curve)).store = (nextBook b' w).2.desk.store := by
        simp only [step, bookCurve, hcall, hp]
        rfl
      have hpend := (priceOne_pending hp).1
      rw [hs, store, ← hw]
      unfold nextBook
      rcases rest with - | ⟨x, rest⟩
      · simp only [hpend]
        refine (appendMarkRow_store b' w).imp id fun h => ?_
        exact ⟨bookRow b' w.desk.now, _, rfl, .book b b' mint pos w w.desk.now hp, h⟩
      · exact .inl (by simp only [hpend])

/-! ### What a waiting mark keeps -/

/-- The fold of a ledger as it was once. -/
def Snapshot (cfg : DeskConfig) (st : LedgerStore) (state : LedgerState) : Prop :=
  ∃ es day, es <+: st.read ∧
    state = replay (initialState (st.initialEquity.getD cfg.budget.paperEquityLamports) day) es

/-- A waiting mark read its state from this ledger, and a book mark has priced what it read
curves for. -/
def MarkingOk (cfg : DeskConfig) (st : LedgerStore) (H : Mint → CurveSnapshot → Prop) :
    Marking → Prop
  | .one mint _ state pos => Snapshot cfg st state ∧ markable state mint = some pos
  | .book b mint pos rest => Snapshot cfg st b.state ∧ b.held = markableAll b.state ∧
      ∃ done, b.held = done ++ (mint, pos) :: rest ∧ Pricing cfg.fees H done b.values b.marks

/-- The marks of a run, with the readings they were handed. -/
structure Marked (cfg : DeskConfig) (x : Sys × List (ℕ × Mint × CurveSnapshot)) : Prop where
  numbered : LedgerStore.Numbered x.1.store.read
  ok : ∀ i k, x.1.look Call.marking i = some k →
    MarkingOk cfg x.1.store (fun m c => (i, m, c) ∈ x.2) k

section Kept

variable {cfg : DeskConfig} {st st' : LedgerStore} {H H' : Mint → CurveSnapshot → Prop}

lemma Snapshot.extend {state : LedgerState} (h : Snapshot cfg st state)
    (hr : st.read <+: st'.read) (he : st'.initialEquity = st.initialEquity) :
    Snapshot cfg st' state := by
  obtain ⟨es, day, hes, rfl⟩ := h
  exact ⟨es, day, hes.trans hr, by rw [he]⟩

lemma Snapshot.plain {state : LedgerState} (h : Snapshot cfg st state) : Plain state.positions := by
  obtain ⟨es, day, -, rfl⟩ := h
  rw [replay_initial_positions]
  exact plain_positionsOf es

lemma snapshot_fold (cfg : DeskConfig) (d : Desk) : Snapshot cfg d.store (d.fold cfg) :=
  ⟨d.store.read, utcDay d.now, List.prefix_refl _, rfl⟩

lemma MarkingOk.extend {k : Marking} (h : MarkingOk cfg st H k) (hr : st.read <+: st'.read)
    (he : st'.initialEquity = st.initialEquity) (hh : ∀ m c, H m c → H' m c) :
    MarkingOk cfg st' H' k := by
  cases k with
  | one mint source state pos => exact ⟨h.1.extend hr he, h.2⟩
  | book b mint pos rest =>
    obtain ⟨hs, hheld, done, hd, hp⟩ := h
    exact ⟨hs.extend hr he, hheld, done, hd, hp.mono hh⟩

lemma MarkingOk.snapshot {k : Marking} (h : MarkingOk cfg st H k) : Snapshot cfg st k.state := by
  cases k with
  | one => exact h.1
  | book => exact h.1

/-- The mints of a book are different. -/
lemma markableAll_keys (state : LedgerState) : ((markableAll state).map Prod.fst).Nodup :=
  state.positions.nodup.sublist (List.filter_sublist.map _)

/-- A book mark once its next reading has come. -/
lemma MarkingOk.reads {b b' : BookMark} {mint : Mint} {pos : PositionView}
    {rest : List (Mint × PositionView)} {curve : Option CurveSnapshot} {w w' : World}
    (h : MarkingOk cfg st H (.book b mint pos rest))
    (hp : priceOne cfg b mint pos rest curve w = (.ok b', w')) (hh : ∀ m c, H m c → H' m c)
    (hc : ∀ c, curve = some c → H' mint c) :
    ∃ done, b'.held = done ++ rest ∧ Pricing cfg.fees H' done b'.values b'.marks := by
  obtain ⟨-, hheld, done, hd, hprice⟩ := h
  obtain ⟨-, -, hheld', hcase⟩ := priceOne_pending hp
  have hnew : mint ∉ done.map Prod.fst := by
    have hn := markableAll_keys b.state
    rw [← hheld, hd, List.map_append, List.nodup_append] at hn
    intro hm
    exact hn.2.2 mint hm mint (by simp) rfl
  refine ⟨done ++ [(mint, pos)], by rw [hheld', hd, List.append_assoc]; rfl, ?_⟩
  rcases hcase with ⟨-, hm, hv⟩ | ⟨c, mk, hu, hl, hm, hv⟩
  · rw [hm, hv]
    exact (hprice.mono hh).kept hnew
  · rw [hm, hv]
    exact (hprice.mono hh).read hnew (hc c (Option.filter_eq_some_iff.mp hu).1) hl

/-- What the row of a mark says: its figures, and for each priced mint the value of the units the
mark read, at the curve it was handed. -/
structure Stated (fees : FeeModel) (H : Mint → CurveSnapshot → Prop)
    (curve : Option CurveSnapshot) (k : Marking) (p : MarkToMarket) : Prop where
  states : p.States k.state
  keys : (p.prices.map Prod.fst).Nodup
  priced : p.prices.map Prod.fst = k.priced curve
  last : k.last = true
  values : ∀ m mk, (m, mk) ∈ p.prices → ∃ c pos, k.state.positions.get m = some pos ∧ H m c ∧
    liquidation fees c pos.tokenUnits = .ok (mk.mtmLamports, mk.venueFeeLamports)

theorem RowOf.stated {k : Marking} {p : MarkToMarket} {curve : Option CurveSnapshot} {w : World}
    (h : MarkingOk cfg st H k) (hr : RowOf cfg w curve k p) (hh : ∀ m c, H m c → H' m c)
    (hc : ∀ c, curve = some c → H' k.mint c) : Stated cfg.fees H' curve k p := by
  cases hr with
  | one mint source state pos c value venue price ts hu hl =>
    obtain ⟨-, hm⟩ := h
    refine ⟨markRow_states hm value venue price ts, by simp, ?_, rfl, ?_⟩
    · simp [Marking.priced, Marking.mint, hu]
    · intro m mk hmem
      obtain ⟨rfl, rfl⟩ := Prod.mk.inj (List.mem_singleton.mp hmem)
      exact ⟨c, pos, (markable_some hm).1, hc c (Option.filter_eq_some_iff.mp hu).1, hl⟩
  | book b b' mint pos w' ts hp =>
    obtain ⟨done, hd, hprice⟩ := h.reads hp hh hc
    obtain ⟨hs, hheld, -⟩ := h
    obtain ⟨-, hs', hheld', hcase⟩ := priceOne_pending hp
    rw [List.append_nil] at hd
    subst hd
    have hall : b'.held = markableAll b'.state := by rw [hheld', hheld, hs']
    have hkeys : (b'.held.map Prod.fst).Nodup := hall ▸ markableAll_keys b'.state
    have hst := bookRow_states (hs' ▸ hs.plain) hall hprice ts
    rw [hs'] at hst
    refine ⟨by rw [hs']; exact hst, hkeys.sublist hprice.keys, ?_, rfl, ?_⟩
    · rcases hcase with ⟨hu, hm, -⟩ | ⟨c, mk, hu, -, hm, -⟩
      · simp [Marking.priced, hu, hm]
      · simp [Marking.priced, Marking.mint, hu, hm]
    · intro m mk hmem
      obtain ⟨c, p, hpos, hm, hl⟩ := hprice.priced m mk hmem
      refine ⟨c, p, ?_, hm, hl⟩
      rw [hall, hs'] at hpos
      exact (Dict.mem_entries_iff _ _ _).mp (List.mem_of_mem_filter hpos)

end Kept

/-- **One step** keeps the marks with their readings. -/
theorem marked_step {cfg : DeskConfig} {s : Sys} {hs : List (ℕ × Mint × CurveSnapshot)}
    (h : Marked cfg (s, hs)) (a : Action) : Marked cfg (s.step cfg a, hs ++ s.hears a) := by
  obtain ⟨st, b, hg, hst⟩ := (step_move cfg s a).grows
  have hread : s.store.read <+: (s.step cfg a).store.read := by
    rw [hst]
    exact hg.read_extends
  have heq : (s.step cfg a).store.initialEquity = s.store.initialEquity := by
    rw [hst]
    exact hg.initialEquity_eq
  constructor
  · show LedgerStore.Numbered (s.step cfg a).store.read
    rw [hst]
    exact hg.numbered h.numbered
  · intro i k hk
    have hold : ∀ m c, (i, m, c) ∈ hs → (i, m, c) ∈ hs ++ s.hears a :=
      fun m c hm => List.mem_append_left _ hm
    have hnow := (snapshot_fold cfg s.world.desk).extend hread heq
    cases step_marking cfg hk with
    | stays k hl => exact (h.ok i k hl).extend hread heq hold
    | starts mint source pos hm => exact ⟨hnow, hm⟩
    | opens b mint pos rest hstate hh hr hv hm =>
      refine ⟨hstate ▸ hnow, hh, [], hr, ?_⟩
      rw [hv, hm]
      exact ⟨rfl, List.Sublist.refl _, by simp⟩
    | reads b b' mint next pos pos' rest curve w hl ha hp =>
      have hok := h.ok i _ hl
      obtain ⟨-, hs', hheld', -⟩ := priceOne_pending hp
      have hc : ∀ c, curve = some c → (i, mint, c) ∈ hs ++ s.hears a := by
        rintro c rfl
        refine List.mem_append_right _ ?_
        rw [ha, hears, markStep, hl]
        simp [Marking.mint]
      obtain ⟨done, hd, hprice⟩ := hok.reads hp hold hc
      obtain ⟨hsnap, hheld, -⟩ := hok
      exact ⟨hs' ▸ hsnap.extend hread heq, by rw [hheld', hheld, hs'], done, hd, hprice⟩

lemma heard_append (cfg : DeskConfig) (s : Sys) (as bs : List Action) :
    heard cfg s (as ++ bs) = heard cfg s as ++ heard cfg (Runs.after (step cfg) s as) bs := by
  induction as generalizing s with
  | nil => rfl
  | cons a as ih => simp [heard, ih, List.append_assoc]

/-- **Every run** keeps the marks with their readings. -/
theorem marked_after (cfg : DeskConfig) (now e₀ : ℤ) (killswitch : KillSwitch) (as : List Action) :
    Marked cfg (Runs.after (step cfg) (start now e₀ killswitch) as,
      heard cfg (start now e₀ killswitch) as) := by
  induction as using List.reverseRecOn with
  | nil =>
    refine ⟨rfl, fun i k hk => ?_⟩
    simp [look, start] at hk
  | append_singleton as a ih =>
    rw [Runs.after_snoc, heard_append]
    simpa [heard] using marked_step ih a

section Row

variable {cfg : DeskConfig} {s : Sys} {hs : List (ℕ × Mint × CurveSnapshot)} {a : Action} {i : ℕ}
  {k : Marking} {curve : Option CurveSnapshot}

omit hs i k curve in
lemma markAppended_some {p : MarkToMarket} (h : s.markAppended cfg a = some p) :
    ∃ e, (s.step cfg a).store.read = s.store.read ++ [e] ∧ e.payload = .markToMarket p := by
  obtain ⟨st, b, hg, hst⟩ := (step_move cfg s a).grows
  have hread : s.store.read <+: (s.step cfg a).store.read := by
    rw [hst]
    exact hg.read_extends
  obtain ⟨es, hes⟩ := hread
  unfold markAppended at h
  rw [← hes, LedgerStore.count, List.drop_left] at h
  split at h
  · rename_i x e
    split at h
    · rename_i q hq
      obtain rfl := Option.some.inj h
      exact ⟨e, hes.symm, hq⟩
    · simp at h
  · simp at h

/-- The mark row a reading appends says what its mark read. -/
lemma Marked.row (h : Marked cfg (s, hs)) (ha : s.markStep a = some (i, k, curve))
    {p : MarkToMarket} (hp : s.markAppended cfg a = some p) :
    Stated cfg.fees (fun m c => (i, m, c) ∈ hs ++ s.hears a) curve k p := by
  obtain ⟨e, he, hp⟩ := markAppended_some hp
  obtain hst | ⟨row, p', hrow, hr, hst⟩ := markStep_store cfg ha
  · rw [hst] at he
    simp at he
  · rw [hst, LedgerStore.read_commit, List.append_cancel_left_eq] at he
    have hpp : p' = p := by
      have := congrArg (List.map fun e : Event => e.payload) he
      simp only [LedgerStore.stamp_payloads, List.map_cons, List.map_nil, hrow, hp,
        List.cons.injEq, Payload.markToMarket.injEq, and_true] at this
      exact this
    subst hpp
    refine hr.stated (h.ok i k (markStep_look ha).1) (fun m c hm => List.mem_append_left _ hm) ?_
    rintro c rfl
    exact List.mem_append_right _ (by simp [hears, ha])

/-- The rows since a mark read its state: none, when the state's number is the ledger's. -/
lemma Marked.current (h : Marked cfg (s, hs)) (hk : s.look Call.marking i = some k)
    (hc : k.state.seq = s.store.count) :
    ∃ day, k.state = replay (initialState
      (s.store.initialEquity.getD cfg.budget.paperEquityLamports) day) s.store.read := by
  obtain ⟨es, day, ⟨rest, hes⟩, hstate⟩ := (h.ok i k hk).snapshot
  have hn : LedgerStore.Numbered es := by
    have := h.numbered
    rw [← hes] at this
    exact (LedgerStore.numbered_append.mp this).1
  rw [hstate, LedgerStore.replay_seq hn, LedgerStore.count, ← hes, List.length_append] at hc
  have hnil : rest = [] := List.length_eq_zero_iff.mp (by omega)
  refine ⟨day, ?_⟩
  rw [hstate, ← hes, hnil, List.append_nil]

end Row

/-- **A mark row and the fold.** A mark appended with no row since it read the ledger states the
equity and the unrealized profit of the fold with its row exactly when the open positions that it
does not price and that were never marked cost nothing. -/
theorem mark_states_equity (cfg : DeskConfig) (now e₀ : ℤ) (killswitch : KillSwitch)
    (as : List Action) (a : Action) (i : ℕ) (k : Marking) (curve : Option CurveSnapshot)
    (p : MarkToMarket) :
    let s := Runs.after (step cfg) (start now e₀ killswitch) as
    s.markStep a = some (i, k, curve) → k.state.seq = s.store.count →
    s.markAppended cfg a = some p →
    ((p.equityLamports = equityLamports ((s.step cfg a).world.desk.fold cfg) ∧
        p.unrealizedLamports = unrealizedPnlLamports ((s.step cfg a).world.desk.fold cfg)) ↔
      unvaluedBasis (s.world.desk.fold cfg).positions (k.priced curve) = 0) := by
  intro s ha hc hrow
  have hm := marked_after cfg now e₀ killswitch as
  have hst := hm.row ha hrow
  obtain ⟨e, he, hp⟩ := markAppended_some hrow
  obtain ⟨day, hstate⟩ := hm.current (markStep_look ha).1 hc
  obtain ⟨st, b, hg, hgst⟩ := (step_move cfg s a).grows
  have heq : (s.step cfg a).store.initialEquity = s.store.initialEquity := by
    rw [hgst]
    exact hg.initialEquity_eq
  set S := replay (initialState (s.store.initialEquity.getD cfg.budget.paperEquityLamports)
    (utcDay (s.step cfg a).world.desk.now)) s.store.read with hS
  have hpos : S.positions = k.state.positions := by
    rw [hS, hstate]
    exact replay_positions_congr _ rfl
  have hcash : S.cashLamports = k.state.cashLamports := by
    rw [hS, hstate]
    exact replay_cash_congr _ rfl
  have hfold : (s.step cfg a).world.desk.fold cfg = reduce S e := by
    have hr : (s.step cfg a).world.desk.store.read = s.store.read ++ [e] := he
    have hi : (s.step cfg a).world.desk.store.initialEquity = s.store.initialEquity := heq
    unfold Desk.fold
    rw [hr, hi, replay_append, replay_cons, replay_nil]
  have hstates : p.States S := by
    refine ⟨?_, ?_⟩
    · rw [hpos, hcash]
      exact hst.states.equity
    · rw [hpos]
      exact hst.states.unrealized
  have hplain : Plain S.positions := by
    rw [hS, replay_initial_positions]
    exact plain_positionsOf _
  obtain ⟨hequity, hunrealized⟩ := states_folded hstates hst.keys hplain e.ts
  have hthere : (s.world.desk.fold cfg).positions = S.positions := replay_positions_congr _ rfl
  have hre : ∀ f : LedgerState → ℤ, (∀ x : LedgerState, ∀ n, f { x with seq := n } = f x) →
      f (reduce S e) = f (onMtm S e.ts p) := by
    intro f hf
    unfold reduce
    rw [hf, hp]
    rfl
  rw [hfold, hre equityLamports fun _ _ => rfl, hre unrealizedPnlLamports fun _ _ => rfl, hequity,
    hunrealized, hthere, ← hst.priced]
  omega

/-- A buy of one mint, its mark, and a buy of another; then the first is marked again. -/
def sampleMarks : List Action :=
  sampleReserves :: samplePlace 0 (sampleBuy 'a' 1) ++
    [.startMark (sampleMint 'a') .paper, .markCurve 1 (some sampleCurve)] ++
    samplePlace 2 (sampleBuy 'b' 2) ++ [.env (.clock 1), .startMark (sampleMint 'a') .paper]

/-- The first mark of the sample, of the only position there is. -/
theorem mark_states_equity_sample :
    ∃ p, (sampleAfter (sampleMarks.take 6)).markAppended sampleConfig
        (.markCurve 1 (some sampleCurve)) = some p ∧
      p.equityLamports =
        equityLamports ((sampleAfter (sampleMarks.take 7)).world.desk.fold sampleConfig) := by
  have hrun : ((sampleAfter (sampleMarks.take 6)).markStep (.markCurve 1 (some sampleCurve))).any
      (fun x => ((sampleAfter (sampleMarks.take 6)).markAppended sampleConfig
        (.markCurve 1 (some sampleCurve))).any fun _ =>
        decide (x.2.1.state.seq = (sampleAfter (sampleMarks.take 6)).store.count ∧
          unvaluedBasis ((sampleAfter (sampleMarks.take 6)).world.desk.fold sampleConfig).positions
            (x.2.1.priced x.2.2) = 0)) = true := by decide +kernel
  obtain ⟨⟨i, k, curve⟩, hk, hmark⟩ := (Option.any_eq_true _ _).mp hrun
  obtain ⟨p, hp, hmark⟩ := (Option.any_eq_true _ _).mp hmark
  obtain ⟨hseq, hb⟩ := of_decide_eq_true hmark
  have hs : sampleAfter (sampleMarks.take 6) =
      Runs.after (step sampleConfig) (start 0 10000000000 {}) (sampleMarks.take 6) := rfl
  have hnext : sampleAfter (sampleMarks.take 7) =
      (sampleAfter (sampleMarks.take 6)).step sampleConfig (.markCurve 1 (some sampleCurve)) := by
    rw [show sampleMarks.take 7 = sampleMarks.take 6 ++ [.markCurve 1 (some sampleCurve)] from rfl]
    exact Runs.after_snoc _ _ _ _
  have hstates := mark_states_equity sampleConfig 0 10000000000 {} (sampleMarks.take 6)
    (.markCurve 1 (some sampleCurve)) i k curve p hk hseq hp
  refine ⟨p, hp, ?_⟩
  rw [hs] at hb hnext
  simp only at hb
  rw [hnext]
  exact (hstates.mpr hb).1

theorem mark_equity_differs :
    ¬ ∀ (cfg : DeskConfig) (now e₀ : ℤ) (killswitch : KillSwitch) (as : List Action) (a : Action)
      (i : ℕ) (k : Marking) (curve : Option CurveSnapshot) (p : MarkToMarket),
      let s := Runs.after (step cfg) (start now e₀ killswitch) as
      s.markStep a = some (i, k, curve) → k.state.seq = s.store.count →
      s.markAppended cfg a = some p →
      p.equityLamports = equityLamports ((s.step cfg a).world.desk.fold cfg) ∧
        p.unrealizedLamports = unrealizedPnlLamports ((s.step cfg a).world.desk.fold cfg) := by
  intro h
  have hrun : ((sampleAfter sampleMarks).markStep (.markCurve 3 (some sampleCurve))).any
      (fun x => ((sampleAfter sampleMarks).markAppended sampleConfig
        (.markCurve 3 (some sampleCurve))).any fun p =>
        decide (x.2.1.state.seq = (sampleAfter sampleMarks).store.count ∧
          p.equityLamports ≠ equityLamports (((sampleAfter sampleMarks).step sampleConfig
            (.markCurve 3 (some sampleCurve))).world.desk.fold sampleConfig))) = true := by
    decide +kernel
  have hs : sampleAfter sampleMarks =
      Runs.after (step sampleConfig) (start 0 10000000000 {}) sampleMarks := rfl
  rw [hs] at hrun
  obtain ⟨⟨i, k, curve⟩, hk, hmark⟩ := (Option.any_eq_true _ _).mp hrun
  obtain ⟨p, hp, hmark⟩ := (Option.any_eq_true _ _).mp hmark
  obtain ⟨hseq, hne⟩ := of_decide_eq_true hmark
  exact hne (h sampleConfig 0 10000000000 {} sampleMarks (.markCurve 3 (some sampleCurve)) i k
    curve p hk hseq hp).1

/-- Every mint a row is about to price is held as the mark read it. -/
def UnitsKept (s : Sys) (a : Action) : Prop :=
  match s.markStep a with
  | none => True
  | some (_, k, curve) => k.last = true →
      ∀ m ∈ k.priced curve, unitsHeld (positionsOf s.store.read) m = openUnits k.state m

instance (s : Sys) (a : Action) : Decidable (s.UnitsKept a) := by
  unfold UnitsKept
  split <;> infer_instance

/-- **Marks value what is held.** In every run whose marks price only mints held as they read
them, each mark row appended carries for each of its mints the liquidation value, at the curve
the mark was handed, of the units held as the row is appended. -/
theorem marks_value_held (cfg : DeskConfig) (now e₀ : ℤ) (killswitch : KillSwitch)
    (as : List Action)
    (hc : Runs.Along (step cfg) UnitsKept (start now e₀ killswitch) as)
    (bs : List Action) (a : Action) (hbs : bs ++ [a] <+: as) (i : ℕ) (k : Marking)
    (curve : Option CurveSnapshot) (p : MarkToMarket) :
    let s := Runs.after (step cfg) (start now e₀ killswitch) bs
    s.markStep a = some (i, k, curve) → s.markAppended cfg a = some p →
    ∀ m mk, (m, mk) ∈ p.prices →
      ∃ c, (i, m, c) ∈ heard cfg (start now e₀ killswitch) (bs ++ [a]) ∧
        liquidation cfg.fees c (unitsHeld (positionsOf s.store.read) m) =
          .ok (mk.mtmLamports, mk.venueFeeLamports) := by
  intro s ha hp m mk hm
  obtain ⟨cs, rfl⟩ := hbs
  have hkept : s.UnitsKept a := by
    have := (Runs.along_append.mp (Runs.along_append.mp hc).1).2
    exact this.1
  have hst := (marked_after cfg now e₀ killswitch bs).row ha hp
  obtain ⟨c, pos, hpos, hheard, hl⟩ := hst.values m mk hm
  refine ⟨c, by rw [heard_append]; simpa [heard] using hheard, ?_⟩
  unfold UnitsKept at hkept
  rw [ha] at hkept
  have hin : m ∈ k.priced curve := by
    rw [← hst.priced]
    exact List.mem_map_of_mem hm
  rw [hkept hst.last m hin]
  simpa [openUnits, hpos] using hl

/-- A mark with no trade between its two readings. -/
theorem marks_value_held_sample :
    ∃ p, (sampleAfter (sampleMarks.take 6)).markAppended sampleConfig
        (.markCurve 1 (some sampleCurve)) = some p ∧
      ∀ m mk, (m, mk) ∈ p.prices →
        ∃ c, (1, m, c) ∈ heard sampleConfig sampleStart
            (sampleMarks.take 6 ++ [.markCurve 1 (some sampleCurve)]) ∧
          liquidation sampleConfig.fees c
              (unitsHeld (positionsOf (sampleAfter (sampleMarks.take 6)).store.read) m) =
            .ok (mk.mtmLamports, mk.venueFeeLamports) := by
  have hrun : ((sampleAfter (sampleMarks.take 6)).markStep (.markCurve 1 (some sampleCurve))).any
      (fun x => ((sampleAfter (sampleMarks.take 6)).markAppended sampleConfig
        (.markCurve 1 (some sampleCurve))).any fun _ => decide (x.1 = 1)) = true := by
    decide +kernel
  have hkept : Runs.Along (step sampleConfig) UnitsKept sampleStart sampleMarks := by
    decide +kernel
  have hs : sampleAfter (sampleMarks.take 6) =
      Runs.after (step sampleConfig) (start 0 10000000000 {}) (sampleMarks.take 6) := rfl
  rw [hs] at hrun ⊢
  obtain ⟨⟨i, k, curve⟩, hk, hmark⟩ := (Option.any_eq_true _ _).mp hrun
  obtain ⟨p, hp, hmark⟩ := (Option.any_eq_true _ _).mp hmark
  obtain rfl : i = 1 := of_decide_eq_true hmark
  exact ⟨p, hp,
    marks_value_held sampleConfig 0 10000000000 {} sampleMarks hkept (sampleMarks.take 6)
    (.markCurve 1 (some sampleCurve)) ⟨sampleMarks.drop 7, rfl⟩ 1 k curve p hk hp⟩

/-- A sale of a part of the holding between the two readings of a mark. -/
def sampleStaleMark : List Action :=
  sampleReserves :: samplePlace 0 (sampleBuy 'a' 1) ++ [.startMark (sampleMint 'a') .paper] ++
    samplePlace 2 (sampleSell 'a' 2 1000000000000 sample_units_pos)

theorem mark_value_stale :
    ¬ ∀ (cfg : DeskConfig) (now e₀ : ℤ) (killswitch : KillSwitch) (bs : List Action) (a : Action)
      (i : ℕ) (k : Marking) (curve : Option CurveSnapshot) (p : MarkToMarket),
      let s := Runs.after (step cfg) (start now e₀ killswitch) bs
      s.markStep a = some (i, k, curve) → s.markAppended cfg a = some p →
      ∀ m mk, (m, mk) ∈ p.prices →
        ∃ c, (i, m, c) ∈ heard cfg (start now e₀ killswitch) (bs ++ [a]) ∧
          liquidation cfg.fees c (unitsHeld (positionsOf s.store.read) m) =
            .ok (mk.mtmLamports, mk.venueFeeLamports) := by
  intro h
  have hrun : ((sampleAfter sampleStaleMark).markStep (.markCurve 1 (some sampleCurve))).any
      (fun r => ((sampleAfter sampleStaleMark).markAppended sampleConfig
        (.markCurve 1 (some sampleCurve))).any fun p =>
        decide (∃ x ∈ p.prices, ∀ y ∈ heard sampleConfig sampleStart
          (sampleStaleMark ++ [Action.markCurve 1 (some sampleCurve)]), y.1 = r.1 → y.2.1 = x.1 →
          (liquidation sampleConfig.fees y.2.2
            (unitsHeld (positionsOf (sampleAfter sampleStaleMark).store.read) x.1)).toOption ≠
              some (x.2.mtmLamports, x.2.venueFeeLamports))) = true := by
    decide +kernel
  have hs : sampleAfter sampleStaleMark =
      Runs.after (step sampleConfig) (start 0 10000000000 {}) sampleStaleMark := rfl
  rw [hs] at hrun
  obtain ⟨⟨i, k, curve⟩, hk, hmark⟩ := (Option.any_eq_true _ _).mp hrun
  obtain ⟨p, hp, hmark⟩ := (Option.any_eq_true _ _).mp hmark
  obtain ⟨⟨m, mk⟩, hx, hy⟩ := of_decide_eq_true hmark
  obtain ⟨c, hc, hl⟩ := h sampleConfig 0 10000000000 {} sampleStaleMark
    (.markCurve 1 (some sampleCurve)) i k curve p hk hp m mk hx
  refine hy (i, m, c) hc rfl rfl ?_
  simp only
  rw [show liquidation sampleConfig.fees c
    (unitsHeld (positionsOf (Runs.after (step sampleConfig) (start 0 10000000000 {})
      sampleStaleMark).store.read) m) = _ from hl]
  rfl

end Sys

end PumpGrok
