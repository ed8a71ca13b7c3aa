import PumpGrok.Desk.Books
import PumpGrok.Desk.Marks

/-!
Blind closes over runs with restarts. The time of the last price and the last reserves of a mint
are in the memory of the adapter, the last mark of a position is on the ledger, and a restart keeps
the ledger alone.
-/

namespace PumpGrok

open World

/-! ### The close -/

/-- The newest good price of a position, in memory or on the ledger, else its opening. -/
def lastGood (a : Adapter) (mint : Mint) (v : PositionView) : ℤ :=
  match a.lastPriceTs.get mint, v.lastMtmTs with
  | some t, some t' => max t t'
  | some t, none => t
  | none, some t' => t'
  | none, none => v.openedTs

/-- What a close is worth: the last mark, or a sale at the last reserves recorded. -/
inductive Worth (cfg : DeskConfig) (a : Adapter) (mint : Mint) (v : PositionView) : ℤ → Prop
  | marked (h : 0 < v.lastMtmLamports) :
      Worth cfg a mint v (v.lastMtmLamports - cfg.fees.networkCost)
  | sold (s t gross : ℤ) (h : v.lastMtmLamports ≤ 0) (hr : a.lastReserves.get mint = some (s, t))
      (hg : sellOut s t v.tokenUnits = .ok gross) :
      Worth cfg a mint v (gross - cfg.fees.venueFee gross - cfg.fees.networkCost)

/-- A call of `check_blind` closes the position at its worth. The ledger refuses the close when the
handle is marked, or when it holds a blind close of the mint at this very instant. -/
inductive Flattens (cfg : DeskConfig) (mint : Mint) (source : EventSource) (v : PositionView)
    (w : World) : Prop
  | closed (e : Event) (p : PositionClosed) (w' : World)
      (hrun : checkBlind cfg mint source w = (.ok (some e), w'))
      (he : e.payload = .positionClosed p) (hm : p.mint = mint) (hr : p.reason = .blindFlatten)
      (hw : Worth cfg w.mem mint v p.proceedsLamports)
      (hg : (w'.desk.fold cfg).positions.get mint = none)
  | refused (x : Exc) (hrun : (checkBlind cfg mint source w).1 = .error x)
      (h : w.desk.store.inconsistent = true ∨
        w.desk.store.byKey (.forceClose .blindFlatten mint w.desk.now) ≠ none ∨
        w.desk.store.byKey (.escalation .blindFlatten mint w.desk.now) ≠ none)

/-- The world at another time of its clock. -/
def World.atTime (t : ℤ) (w : World) : World := { w with desk := { w.desk with now := t } }

namespace Sys

/-- **Every blind position is closed** by `check_blind`, whenever it is called. -/
def BlindCloses (cfg : DeskConfig) (s : Sys) : Prop :=
  ∀ mint source v t, heldPosition (s.world.desk.fold cfg) mint = some v → v.mtmFrozen = false →
    cfg.limits.blindMax < t - lastGood s.world.mem mint v →
    Flattens cfg mint source v (s.world.atTime t)

/-- A new process on the ledger of the old: no call, no memory of orders, prices or decisions, and
a handle not yet marked. The rest of the desk is that of the new process. -/
def restart (s : Sys) (d : Desk) : Sys where
  world :=
    { desk := { d with
        store := { s.store with inconsistent := false }
        nextId := s.world.desk.nextId
        decisions := ∅ }
      mem := {} }
  calls := []

inductive Happening where
  | act (a : Action)
  | restart (d : Desk)

def happen (cfg : DeskConfig) (s : Sys) : Happening → Sys
  | .act a => s.step cfg a
  | .restart d => s.restart d

/-- A restart finds a mark worth something for every open position that can be marked. -/
def MarkedAll (cfg : DeskConfig) (s : Sys) : Happening → Prop
  | .act _ => True
  | .restart _ => ∀ mint v, heldPosition (s.world.desk.fold cfg) mint = some v →
      v.mtmFrozen = false → v.lastMtmTs ≠ none ∧ 0 < v.lastMtmLamports

end Sys

/-! ### What is known of a price -/

/-- What the ledger and the memory tell of one mint. -/
structure Knowledge where
  pos : Option PositionView
  ts : Option ℤ
  reserves : Option (ℤ × ℤ)

def World.knows (w : World) (m : Mint) : Knowledge where
  pos := (positionsOf w.desk.store.read).get m
  ts := w.mem.lastPriceTs.get m
  reserves := w.mem.lastReserves.get m

namespace Knowledge

/-- The reserves can price a sale. -/
def Solid (x : Knowledge) : Prop := ∀ r, x.reserves = some r → 0 < r.1 ∧ 0 < r.2

/-- A held position has the time of a price, and a value. -/
def Covered (x : Knowledge) : Prop :=
  ∀ v, x.pos = some v → 0 < v.tokenUnits → (x.ts ≠ none ∨ v.lastMtmTs ≠ none) ∧
    (0 < v.lastMtmLamports ∨ x.reserves ≠ none)

/-- Nothing known is lost that a close needs. -/
structure Kept (x y : Knowledge) : Prop where
  known : x.reserves ≠ none → y.reserves ≠ none
  solid : x.Solid → y.Solid
  covered : x.Covered → y.Covered

instance : IsPreorder Knowledge Kept where
  refl _ := ⟨id, id, id⟩
  trans _ _ _ h h' := ⟨h'.known ∘ h.known, h'.solid ∘ h.solid, h'.covered ∘ h.covered⟩

variable {x y : Knowledge}

/-- A price is read. -/
lemma kept_read {t : ℤ} {r : ℤ × ℤ} (ht : y.ts = some t) (hr : y.reserves = some r)
    (hpos : 0 < r.1 ∧ 0 < r.2) : Kept x y where
  known _ := by simp [hr]
  solid _ r' hr' := by
    rw [hr] at hr'
    exact Option.some.inj hr' ▸ hpos
  covered _ v _ _ := ⟨.inl (by simp [ht]), .inr (by simp [hr])⟩

/-- The position is closed. -/
lemma kept_closed (hp : y.pos = none) (hr : y.reserves = x.reserves) : Kept x y where
  known h := hr ▸ h
  solid h r hr' := h r (hr ▸ hr')
  covered _ v hv := by simp [hp] at hv

/-- The position is marked, or stays, next to reserves that are known. -/
lemma kept_marked (hs : y.ts = x.ts) (hr : y.reserves = x.reserves)
    (hp : y.pos = x.pos ∨
      x.reserves ≠ none ∧ ∀ v, y.pos = some v → x.pos = some v ∨ v.lastMtmTs ≠ none) :
    Kept x y where
  known h := hr ▸ h
  solid h r hr' := h r (hr ▸ hr')
  covered h v hv hu := by
    rw [hs, hr]
    rcases hp with hp | ⟨hknown, hp⟩
    · exact h v (hp ▸ hv) hu
    · rcases hp v hv with hold | hts
      · exact h v hold hu
      · exact ⟨.inr hts, .inr hknown⟩

end Knowledge

/-! ### Rows and one mint -/

/-- The payload may change the position of the mint. -/
def Payload.touches (m : Mint) : Payload → Bool
  | .fillRecorded p => p.mint = m
  | .positionOpened p => p.mint = m
  | .positionClosed p => p.mint = m
  | .markToMarket p => m ∈ p.prices.map Prod.fst
  | _ => false

section Rows

variable {m : Mint}

lemma markPosition_elsewhere (ts : ℤ) (P : Dict Mint PositionView) {k : Mint × Mark}
    (h : k.1 ≠ m) : (markPosition ts P k).get m = P.get m := by
  unfold markPosition
  split
  · rfl
  · split_ifs
    · rfl
    · rw [Dict.get_set, if_neg h.symm]

lemma marks_elsewhere (ts : ℤ) {prices : List (Mint × Mark)} (h : m ∉ prices.map Prod.fst)
    (P : Dict Mint PositionView) : (prices.foldl (markPosition ts) P).get m = P.get m := by
  induction prices generalizing P with
  | nil => rfl
  | cons k ks ih =>
    rw [List.map_cons, List.mem_cons, not_or] at h
    rw [List.foldl_cons, ih h.2, markPosition_elsewhere ts P (Ne.symm h.1)]

/-- A row of marks leaves a position as it was, or marked. -/
lemma marks_timed (ts : ℤ) (prices : List (Mint × Mark)) (P : Dict Mint PositionView)
    {v : PositionView} (h : (prices.foldl (markPosition ts) P).get m = some v) :
    P.get m = some v ∨ v.lastMtmTs ≠ none := by
  induction prices generalizing P with
  | nil => exact .inl h
  | cons k ks ih =>
    rcases ih _ h with hk | hk
    · unfold markPosition at hk
      split at hk
      · exact .inl hk
      · split_ifs at hk
        · exact .inl hk
        · rw [Dict.get_set] at hk
          split_ifs at hk
          · exact .inr (by rw [← Option.some.inj hk]; simp)
          · exact .inl hk
    · exact .inr hk

lemma handle_elsewhere (s : LedgerState) (ts : ℤ) {p : Payload} (h : p.touches m = false) :
    (handle s ts p).positions.get m = s.positions.get m := by
  cases p with
  | positionOpened p =>
    simp only [Payload.touches, decide_eq_false_iff_not] at h
    simp only [handle]
    by_cases hm : p.mint = []
    · simp [onPositionOpened, hm]
    · rw [onPositionOpened_positions s hm, Dict.get_set, if_neg (Ne.symm h)]
  | positionClosed p =>
    simp only [Payload.touches, decide_eq_false_iff_not] at h
    simp only [handle, onPositionClosed_positions]
    rw [Dict.get_erase, if_neg (Ne.symm h)]
  | fillRecorded p =>
    simp only [Payload.touches, decide_eq_false_iff_not] at h
    simp only [handle]
    unfold onFill
    rw [trackPeak_positions]
    split
    · rfl
    · split_ifs
      · exact (Dict.get_set _ _ _ _).trans (if_neg (Ne.symm h))
      · exact (Dict.get_set _ _ _ _).trans (if_neg (Ne.symm h))
      · rfl
  | markToMarket p =>
    simp only [Payload.touches, decide_eq_false_iff_not] at h
    simp only [handle, onMtm_positions]
    exact marks_elsewhere ts h _
  | _ => rfl

lemma replay_elsewhere {s : LedgerState} {es : List Event}
    (h : ∀ e ∈ es, e.payload.touches m = false) :
    (replay s es).positions.get m = s.positions.get m := by
  induction es generalizing s with
  | nil => rfl
  | cons e es ih =>
    rw [replay_cons, ih fun x hx => h x (List.mem_cons_of_mem _ hx), reduce_positions,
      handle_elsewhere s e.ts (h e (by simp))]

/-- The positions once rows are committed. -/
lemma positionsOf_commit (st : LedgerStore) (rows : List Row) :
    positionsOf (st.commit rows).read =
      (replay (replay (initialState 0 0) st.read)
        (LedgerStore.stamp (st.count + 1) rows)).positions := by
  rw [LedgerStore.read_commit, positionsOf, replay_append]

lemma commit_elsewhere (st : LedgerStore) {rows : List Row}
    (h : ∀ r ∈ rows, r.payload.touches m = false) :
    (positionsOf (st.commit rows).read).get m = (positionsOf st.read).get m := by
  rw [positionsOf_commit]
  refine replay_elsewhere fun e he => ?_
  have hp : e.payload ∈ rows.map Row.payload := by
    rw [← LedgerStore.stamp_payloads (st.count + 1) rows]
    exact List.mem_map_of_mem he
  obtain ⟨r, hr, hre⟩ := List.mem_map.mp hp
  rw [← hre]
  exact h r hr

variable {cfg : DeskConfig} {c : PlaceCall}

lemma placedRows_touches {dec : RiskDecision} {order : ℕ} {ts : ℤ} {r : Row}
    (h : r ∈ placedRows cfg c dec order ts) : r.payload.touches m = false := by
  unfold placedRows orderRows at h
  split at h
  · obtain rfl := List.mem_singleton.mp h
    rfl
  · simp only [List.mem_cons, List.not_mem_nil, or_false] at h
    rcases h with rfl | rfl <;> rfl

lemma boughtRows_touches {p : Placed} {q : BuyQuote} {curve : CurveSnapshot} {out1 : ℤ} {d : Desk}
    {r : Row} (hm : m ≠ c.request.mint) (h : r ∈ boughtRows cfg c p q curve out1 d) :
    r.payload.touches m = false := by
  unfold boughtRows buyFillRows at h
  split_ifs at h
  · obtain rfl := List.mem_singleton.mp h
    exact decide_eq_false (Ne.symm hm)
  · simp only [List.mem_cons, List.not_mem_nil, or_false] at h
    rcases h with rfl | rfl <;> exact decide_eq_false (Ne.symm hm)

lemma soldRows_touches {p : Placed} {plan : SellPlan} {curve : CurveSnapshot} {v : PositionView}
    {gross1 : ℤ} {d : Desk} {r : Row} (hm : m ≠ c.request.mint)
    (h : r ∈ soldRows cfg c p plan curve v gross1 d) : r.payload.touches m = false := by
  simp only [soldRows, sellRows] at h
  split_ifs at h
  · simp only [List.mem_cons, List.not_mem_nil, or_false] at h
    rcases h with rfl | rfl <;> exact decide_eq_false (Ne.symm hm)
  · obtain rfl := List.mem_singleton.mp h
    exact decide_eq_false (Ne.symm hm)

lemma forceCloseRows_touches {f : ForceClose} {v : PositionView} {order ref : ℕ} {ts : ℤ} {r : Row}
    (hm : m ≠ f.mint) (h : r ∈ forceCloseRows f v order ref ts) : r.payload.touches m = false := by
  simp only [forceCloseRows, List.mem_cons, List.not_mem_nil, or_false] at h
  rcases h with rfl | rfl | rfl
  · exact decide_eq_false (Ne.symm hm)
  · exact decide_eq_false (Ne.symm hm)
  · rfl

/-- A holding is gone once the rows of its forced close are on the ledger. -/
lemma closed_position {f : ForceClose} {w : World} {v : PositionView} :
    (positionsOf (Sys.closedWorld f v w).desk.store.read).get f.mint = none := by
  unfold Sys.closedWorld
  simp only
  rw [positionsOf_commit]
  simp only [forceCloseRows, LedgerStore.stamp, replay_cons, replay_nil, reduce_positions,
    forceCloseEscalationRow, forceClosePositionRow, handle, onPositionClosed_positions]
  exact Dict.get_erase_self _ _

end Rows

/-! ### What the programs keep -/

section Worlds

variable {cfg : DeskConfig} {w w' : World} {c : PlaceCall} {d : Desk} (m : Mint)

lemma knows_engine (h : w.desk.store.Grows EngineRow w'.desk.store) (hm : w'.mem = w.mem) :
    w'.knows m = w.knows m := by
  unfold World.knows
  rw [positions_engine h, hm]

lemma knows_commit (w : World) {rows : List Row} (h : ∀ r ∈ rows, r.payload.touches m = false) :
    (w.commit rows).knows m = w.knows m := by
  unfold World.knows
  rw [World.commit_store, commit_elsewhere _ h]
  rfl

lemma Unplaced.knows (h : Unplaced cfg c w w') : w'.knows m = w.knows m := by
  cases h with
  | silent hd => exact knows_engine m hd.store rfl
  | refused reason detail hd hf =>
    rw [knows_commit m _ (by simp [acceptedRefusal, rejectRow, Payload.touches])]
    exact knows_engine m hd.store rfl

lemma Refusing.knows {order : ℕ} (h : Refusing cfg c order w w') : w'.knows m = w.knows m := by
  cases h with
  | written reason detail fig hid hfee ht =>
    exact knows_commit m _ (by simp [confirmingRefusal, rejectRow, Payload.touches])
  | unwritten => rfl

lemma knows_leave (c : PlaceCall) (i : ℕ) (own : Bool) (hd : w.desk.Quietly w'.desk)
    (hm : w'.mem = leave c i own w.mem) : w'.knows m = w.knows m := by
  have hts : (leave c i own w.mem).lastPriceTs = w.mem.lastPriceTs := by
    unfold leave clearOwned
    split_ifs <;> split <;> rfl
  have hreserves : (leave c i own w.mem).lastReserves = w.mem.lastReserves := by
    unfold leave clearOwned
    split_ifs <;> split <;> rfl
  unfold World.knows
  rw [positions_engine hd.store, hm, hts, hreserves]

/-- A price of one mint is remembered, and the positions of the others stay. -/
lemma kept_remembered {mint : Mint} {t : ℤ} {r : ℤ × ℤ} (hpos : 0 < r.1 ∧ 0 < r.2)
    (hts : w'.mem.lastPriceTs = w.mem.lastPriceTs.set mint t)
    (hr : w'.mem.lastReserves = w.mem.lastReserves.set mint r)
    (hp : m ≠ mint → (positionsOf w'.desk.store.read).get m =
      (positionsOf w.desk.store.read).get m) :
    Knowledge.Kept (w.knows m) (w'.knows m) := by
  by_cases hm : m = mint
  · subst hm
    refine Knowledge.kept_read (t := t) (r := r) ?_ ?_ hpos
    · exact (congrArg (·.get m) hts).trans (Dict.get_set_self _ _ _)
    · exact (congrArg (·.get m) hr).trans (Dict.get_set_self _ _ _)
  · have hsame : w'.knows m = w.knows m := by
      unfold World.knows
      rw [hp hm, hts, hr, Dict.get_set, if_neg hm, Dict.get_set, if_neg hm]
    rw [hsame]
    exact refl_of _ _

lemma kept_settled {p : Placed} {curve : CurveSnapshot} {rows : List Row}
    (hd : w.desk.store.Grows EngineRow d.store)
    (hrows : m ≠ c.request.mint → ∀ r ∈ rows, r.payload.touches m = false)
    (hpos : 0 < curve.sLamports ∧ 0 < curve.tUnits) :
    Knowledge.Kept (w.knows m) ((settledWorld c p curve rows w d).knows m) := by
  refine kept_remembered m hpos rfl rfl fun hm => ?_
  rw [← positions_engine hd]
  exact commit_elsewhere d.store (hrows hm)

lemma kept_forced (f : ForceClose) :
    Knowledge.Kept (w.knows m) ((forceClose cfg f w).2.knows m) := by
  rcases Sys.forceClose_cases cfg f w with
    ⟨-, hr⟩ | ⟨v, hv, ⟨-, -, hr⟩ | ⟨-, x, hr⟩⟩ <;> rw [hr]
  · exact refl_of _ _
  · by_cases hm : m = f.mint
    · subst hm
      exact Knowledge.kept_closed closed_position rfl
    · have hsame : (Sys.closedWorld f v w).knows m = w.knows m := by
        unfold World.knows Sys.closedWorld
        simp only [Dict.get_erase, if_neg hm]
        rw [commit_elsewhere _ fun r => forceCloseRows_touches hm]
      rw [hsame]
      exact refl_of _ _
  · exact refl_of _ _

lemma kept_closing {w' : World} (h : w' = w ∨ ∃ f, w' = (forceClose cfg f w).2) :
    Knowledge.Kept (w.knows m) (w'.knows m) := by
  rcases h with rfl | ⟨f, rfl⟩
  · exact refl_of _ _
  · exact kept_forced m f

/-- A usable reading has reserves that can price a sale. -/
lemma liquidation_pos {fees : FeeModel} {curve : CurveSnapshot} {units : ℤ} {x : ℤ × ℤ}
    (h : liquidation fees curve units = .ok x) : 0 < curve.sLamports ∧ 0 < curve.tUnits := by
  obtain ⟨gross, hg, -⟩ := except_bind_ok_iff.mp h
  obtain ⟨hs, ht, -⟩ := sellOut_ok_iff.mp hg
  exact ⟨hs, ht⟩

lemma kept_mark (mint : Mint) (source : EventSource) (state : LedgerState) (pos : PositionView)
    (curve : Option CurveSnapshot) :
    Knowledge.Kept (w.knows m)
      ((markToMarket cfg mint source state pos curve w).2.knows m) := by
  have hrefl : Knowledge.Kept (w.knows m) (w.knows m) := refl_of _ _
  unfold markToMarket
  rcases curve with - | curve
  · exact hrefl
  simp only
  split_ifs
  · exact hrefl
  rcases hl : liquidation cfg.fees curve pos.tokenUnits with x | ⟨value, venue⟩
  · exact hrefl
  rcases hs : spot curve.sLamports curve.tUnits with x | price
  · exact hrefl
  have hv : (World.ofExcept (.ok (value, venue)) : Prog World Exc (ℤ × ℤ)) w =
    (.ok (value, venue), w) := rfl
  have hp : (World.ofExcept (.ok price) : Prog World Exc ℚ) w = (.ok price, w) := rfl
  rw [Prog.bind_run_ok hv, Prog.bind_run_ok hp, Prog.bind_run_ok (now_run w)]
  set row := markRow state mint pos value venue price source w.desk.now with hrow
  rcases ha : LedgerStore.append row w.desk.store with ⟨x | e, st⟩
  · obtain ⟨rfl, -⟩ := LedgerStore.append_error_iff.mp ha
    rw [Prog.bind_run_error (onStore_run ha)]
    exact hrefl
  · obtain ⟨-, -, -, rfl⟩ := LedgerStore.append_ok_iff.mp ha
    rw [Prog.bind_run_ok (onStore_run ha)]
    refine kept_remembered m (liquidation_pos hl) rfl rfl fun hm => commit_elsewhere _ ?_
    simpa [hrow, markRow, Payload.touches] using hm

/-- Pricing a mint of the book. -/
lemma kept_price (b : BookMark) (mint : Mint) (pos : PositionView)
    (rest : List (Mint × PositionView)) (curve : Option CurveSnapshot) :
    Knowledge.Kept (w.knows m) ((priceOne cfg b mint pos rest curve w).2.knows m) := by
  have hrefl : Knowledge.Kept (w.knows m) (w.knows m) := refl_of _ _
  unfold priceOne
  rcases hu : usable curve with - | seen
  · rw [show curve.filter (fun c => !c.complete) = none from hu]
    exact hrefl
  rw [show curve.filter (fun c => !c.complete) = some seen from hu]
  simp only
  rcases hl : liquidation cfg.fees seen pos.tokenUnits with x | ⟨value, venue⟩
  · exact hrefl
  rcases hs : spot seen.sLamports seen.tUnits with x | price
  · exact hrefl
  exact kept_remembered m (liquidation_pos hl) rfl rfl fun _ => rfl

/-- The mints a book mark has priced have reserves in memory. -/
def BookMark.Noted (b : BookMark) (a : Adapter) : Prop :=
  ∀ x ∈ b.marks, a.lastReserves.get x.1 ≠ none

lemma noted_price {b b' : BookMark} {mint : Mint} {pos : PositionView}
    {rest : List (Mint × PositionView)} {curve : Option CurveSnapshot}
    (h : priceOne cfg b mint pos rest curve w = (.ok b', w')) (hb : b.Noted w.mem) :
    b'.Noted w'.mem := by
  unfold priceOne at h
  rcases hu : usable curve with - | seen
  · rw [show curve.filter (fun c => !c.complete) = none from hu] at h
    cases h
    exact hb
  · rw [show curve.filter (fun c => !c.complete) = some seen from hu] at h
    simp only at h
    obtain ⟨v, w₁, hv, hrest⟩ := Prog.bind_ok_iff.mp h
    obtain ⟨-, rfl⟩ := ofExcept_ok_iff.mp hv
    obtain ⟨price, w₂, hp, hlast⟩ := Prog.bind_ok_iff.mp hrest
    obtain ⟨-, rfl⟩ := ofExcept_ok_iff.mp hp
    obtain ⟨rfl, rfl⟩ := (Prod.mk.inj hlast).imp_left Except.ok.inj
    intro x hx
    show Dict.get _ x.1 ≠ none
    rw [Dict.get_set]
    split_ifs with hm
    · simp
    · rcases List.mem_append.mp hx with hx | hx
      · exact hb x hx
      · exact absurd (congrArg Prod.fst (List.mem_singleton.mp hx)) hm

lemma appendMarkRow_mem (b : BookMark) (w : World) : (appendMarkRow b w).2.mem = w.mem := by
  unfold appendMarkRow
  rw [Prog.bind_run_ok (now_run w), Prog.bind_run_ok (Prog.read_run _ _)]
  split_ifs
  · rfl
  · rcases ha : LedgerStore.append (bookRow b w.desk.now) w.desk.store with ⟨x | e, st⟩
    · rw [Prog.bind_run_error (onStore_run ha)]
      rfl
    · rw [Prog.bind_run_ok (onStore_run ha)]
      rfl

lemma kept_append {b : BookMark} (hb : b.Noted w.mem) :
    Knowledge.Kept (w.knows m) ((appendMarkRow b w).2.knows m) := by
  have hmem := appendMarkRow_mem b w
  refine Knowledge.kept_marked ?_ ?_ ?_
  · exact congrArg (·.lastPriceTs.get m) hmem
  · exact congrArg (·.lastReserves.get m) hmem
  show (positionsOf (appendMarkRow b w).2.desk.store.read).get m = _ ∨ _ ∧ ∀ v,
    (positionsOf (appendMarkRow b w).2.desk.store.read).get m = some v → _
  rcases Sys.appendMarkRow_store b w with hst | hst <;> rw [hst]
  · exact .inl rfl
  by_cases hm : m ∈ b.marks.map Prod.fst
  · obtain ⟨x, hx, rfl⟩ := List.mem_map.mp hm
    refine .inr ⟨hb x hx, fun v hv => ?_⟩
    rw [positionsOf_commit] at hv
    simp only [LedgerStore.stamp, replay_cons, replay_nil, reduce_positions, bookRow, handle,
      onMtm_positions] at hv
    exact marks_timed _ _ _ hv
  · exact .inl (commit_elsewhere _ (by simpa [bookRow, Payload.touches] using hm))

lemma kept_book {b : BookMark} (hb : b.Noted w.mem) :
    Knowledge.Kept (w.knows m) ((Sys.nextBook b w).2.knows m) := by
  unfold Sys.nextBook
  split
  · exact refl_of _ _
  · exact kept_append m hb

end Worlds

/-! ### What a step keeps -/

namespace Sys

variable {cfg : DeskConfig} {s : Sys} (m : Mint)

/-- Every book mark that waits has the reserves of what it priced. -/
def Noted (s : Sys) : Prop :=
  ∀ i b mint pos rest, s.look Call.marking i = some (.book b mint pos rest) → b.Noted s.world.mem

/-- A resumed call keeps what its stretch keeps. -/
lemma kept_resume {i : ℕ} {stretch : PlaceCall → Wait → Option (Prog World Exc Next)}
    (h : ∀ c wait mm, stretch c wait = some mm →
      Knowledge.Kept (s.world.knows m) ((mm s.world).2.knows m)) :
    Knowledge.Kept (s.world.knows m) ((s.resumePlace cfg i stretch).world.knows m) := by
  rcases resumePlace_cases cfg s i stretch with
    hs | ⟨c, wait, mm, -, hm, ⟨next, w, hr, hw, -⟩ | ⟨o, w, own, hr, hd, hmem, -⟩⟩
  · rw [hs]
    exact refl_of _ _
  · have hk := h c wait mm hm
    rw [hr] at hk
    rw [hw]
    exact hk
  · have hk := h c wait mm hm
    rw [hr] at hk
    rw [knows_leave m c i own hd hmem]
    exact hk

lemma kept_startPlace (c : PlaceCall) :
    Knowledge.Kept (s.world.knows m) ((s.startPlace cfg c).world.knows m) := by
  set w₀ : World := { s.world with mem :=
    { s.world.mem with activePlaces := insert c.key s.world.mem.activePlaces } } with hw₀
  have hrun := placeStart_run cfg c w₀
  have hknows : (placeStart cfg c w₀).2.knows m = s.world.knows m := by
    generalize (placeStart cfg c w₀).1 = o at hrun
    generalize (placeStart cfg c w₀).2 = w at hrun ⊢
    cases hrun with
    | answered => rfl
    | ended x hn hu => exact hu.knows m
    | @asked dec d hn hc hp =>
      have hcons := check_consulted cfg (c.checkCall cfg .accepted) w₀.desk
      rw [hc] at hcons
      show (w₀.withDesk d).knows m = w₀.knows m
      exact knows_engine m hcons.store rfl
  have hend : (s.startPlace cfg c).world.knows m = (placeStart cfg c w₀).2.knows m := by
    unfold startPlace runPlace
    simp only [← hw₀]
    rcases placeStart cfg c w₀ with ⟨x | (next | fill), w⟩
    · obtain ⟨hd, hmem⟩ := concludePlace_run cfg c s.calls.length
        (decide (c.key ∉ s.world.mem.activePlaces)) (.error x) w
      exact knows_leave m c _ _ hd hmem
    · rfl
    · obtain ⟨hd, hmem⟩ := concludePlace_run cfg c s.calls.length
        (decide (c.key ∉ s.world.mem.activePlaces)) (.ok fill) w
      exact knows_leave m c _ _ hd hmem
  rw [hend, hknows]
  exact refl_of _ _

lemma kept_curve0 (owner : ℕ) (c : PlaceCall) (size : ℤ) (curve : Option CurveSnapshot)
    (latency : ℤ) (dropped : Bool) (w : World) : Knowledge.Kept (w.knows m)
      ((placeCurve0 cfg owner c size curve latency dropped w).2.knows m) := by
  have hrun := placeCurve0_run cfg c owner size curve latency dropped w
  have hknows : (placeCurve0 cfg owner c size curve latency dropped w).2.knows m =
      w.knows m := by
    generalize (placeCurve0 cfg owner c size curve latency dropped w).1 = o at hrun
    generalize (placeCurve0 cfg owner c size curve latency dropped w).2 = w' at hrun ⊢
    cases hrun with
    | ended o hu => exact hu.knows m
    | placed dec seen quoted hseen hq hw =>
      have hcons := check_consulted cfg (c.checkCall cfg .accepted) (drawnDesk w.desk)
      rw [show check cfg (c.checkCall cfg .accepted) (drawnDesk w.desk) = _ from hw.checked]
        at hcons
      unfold World.knows
      simp only [sleepMemory]
      rw [commit_elsewhere _ fun r => placedRows_touches, positions_engine hcons.store]
      rfl
  rw [hknows]
  exact refl_of _ _

lemma kept_wake (c : PlaceCall) (p : Placed) (q : Quoted) (overran : Bool) (w : World) :
    Knowledge.Kept (w.knows m) ((placeWake cfg c p q overran w).2.knows m) := by
  have hrun := placeWake_run cfg c p q overran w
  have hknows : (placeWake cfg c p q overran w).2.knows m = w.knows m := by
    generalize (placeWake cfg c p q overran w).1 = o at hrun
    generalize (placeWake cfg c p q overran w).2 = w' at hrun ⊢
    cases hrun with
    | waits => rfl
    | refused x cancelled ho hc hk href => exact href.knows m
  rw [hknows]
  exact refl_of _ _

lemma kept_curve1 (c : PlaceCall) (p : Placed) (q : Quoted) (curve1 : Option CurveSnapshot)
    (w : World) :
    Knowledge.Kept (w.knows m) ((placeCurve1 cfg c p q curve1 w).2.knows m) := by
  have hrun := placeCurve1_run cfg c p q curve1 w
  generalize (placeCurve1 cfg c p q curve1 w).1 = o at hrun
  generalize (placeCurve1 cfg c p q curve1 w).2 = w' at hrun ⊢
  have hengine : ∀ {d : Desk}, w.desk.Consulted cfg (c.checkCall cfg .confirming) d →
      (w.withDesk d).knows m = w.knows m := fun hd => knows_engine m hd.store rfl
  cases hrun with
  | refused x hd href =>
    rw [href.knows m]
    exact (hengine hd) ▸ refl_of _ _
  | raised x hd h => exact (hengine hd) ▸ refl_of _ _
  | bought fill quote curve dec q out1 hq hcurve hdec hp hin hne hc hf =>
    obtain ⟨hs, ht, -⟩ := buyOut_ok_iff.mp hp.priced
    exact kept_settled m (confirmed_consulted hdec).store
      (fun hm r => boughtRows_touches hm) ⟨hs, ht⟩
  | sold fill plan curve dec v gross1 hq hcurve hdec hv hheld hp hin hc hf =>
    obtain ⟨hs, ht, -⟩ := sellOut_ok_iff.mp hp
    exact kept_settled m (confirmed_consulted hdec).store
      (fun hm r => soldRows_touches hm) ⟨hs, ht⟩

lemma verify_knows :
    Prog.Keeps (Prog.Same (World.knows · m)) (World.onStore LedgerStore.verify) := by
  intro w
  unfold World.onStore World.onDesk Desk.onStore Prog.on LedgerStore.verify
  split_ifs <;> exact refl_of _ _

lemma closeStart_knows (reason : ExitReason) :
    Prog.Keeps (Prog.Same (World.knows · m)) (closeStart reason) := by
  unfold closeStart
  refine .ite (.raise _) fun w => ?_
  rcases h : World.onStore LedgerStore.verify w with ⟨x | u, w'⟩
  · exact (verify_knows m).run h
  · exact (verify_knows m).run h

/-! #### The calls of an order -/

lemma kept_curve0Stretch {i : ℕ} {curve : Option CurveSnapshot} {latency : ℤ} {dropped : Bool}
    {c : PlaceCall} {wait : Wait} {mm : Prog World Exc Next} (w : World)
    (h : curve0Stretch cfg i curve latency dropped c wait = some mm) :
    Knowledge.Kept (w.knows m) ((mm w).2.knows m) := by
  cases wait with
  | curve0 size =>
    obtain rfl := Option.some.inj h
    exact kept_curve0 m i c size curve latency dropped w
  | sleep p q => simp [curve0Stretch] at h
  | curve1 p q => simp [curve0Stretch] at h

lemma kept_wakeStretch {overran : Bool} {c : PlaceCall} {wait : Wait} {mm : Prog World Exc Next}
    (w : World) (h : wakeStretch cfg overran c wait = some mm) :
    Knowledge.Kept (w.knows m) ((mm w).2.knows m) := by
  cases wait with
  | sleep p q =>
    obtain rfl := Option.some.inj h
    exact kept_wake m c p q overran w
  | curve0 size => simp [wakeStretch] at h
  | curve1 p q => simp [wakeStretch] at h

lemma kept_curve1Stretch {curve : Option CurveSnapshot} {c : PlaceCall} {wait : Wait}
    {mm : Prog World Exc Next} (w : World) (h : curve1Stretch cfg curve c wait = some mm) :
    Knowledge.Kept (w.knows m) ((mm w).2.knows m) := by
  cases wait with
  | curve1 p q =>
    obtain rfl := Option.some.inj h
    exact kept_curve1 m c p q curve w
  | curve0 size => simp [curve1Stretch] at h
  | sleep p q => simp [curve1Stretch] at h

lemma kept_abort (i : ℕ) :
    Knowledge.Kept (s.world.knows m) ((s.abort cfg i).world.knows m) := by
  unfold abort
  split
  · refine kept_resume m fun c wait mm hm => ?_
    obtain rfl := Option.some.inj hm
    exact refl_of _ _
  all_goals exact refl_of _ _

/-! #### The marks -/

lemma kept_bookCurve (h : s.Noted) (i : ℕ) (curve : Option CurveSnapshot) :
    Knowledge.Kept (s.world.knows m) ((s.bookCurve cfg i curve).world.knows m) := by
  simp only [bookCurve]
  split
  · rename_i b mint pos rest hcall
    have hb := h i b mint pos rest (Option.bind_eq_some_iff.mpr ⟨_, hcall, rfl⟩)
    have hk := @kept_price cfg s.world m b mint pos rest curve
    split
    · rename_i b' w hp
      rw [hp] at hk
      exact trans_of _ hk (kept_book m (noted_price hp hb))
    · rename_i x w hp
      rw [hp] at hk
      exact hk
  · exact refl_of _ _

/-! #### The other writers -/

lemma kept_otherRow (other : OtherRow) (w : World) :
    Knowledge.Kept (w.knows m) ((World.onStore (LedgerStore.append other.row) w).2.knows m) := by
  have hrows : ∀ r ∈ [other.row], r.payload.touches m = false := by
    intro r hr
    have hp := other.payload_free
    rw [List.mem_singleton.mp hr]
    cases hpay : other.row.payload <;> simp_all [Payload.isTrade, Payload.touches]
  rcases ha : LedgerStore.append other.row w.desk.store with ⟨x | e, st⟩
  · obtain ⟨rfl, -⟩ := LedgerStore.append_error_iff.mp ha
    rw [onStore_run ha]
    exact refl_of _ _
  · obtain ⟨-, -, -, rfl⟩ := LedgerStore.append_ok_iff.mp ha
    rw [onStore_run ha]
    exact (knows_commit m w hrows) ▸ refl_of _ _

lemma kept_quiet {prog : Prog Desk Exc Unit} (hq : Prog.Keeps Desk.Quietly prog) (w : World) :
    Knowledge.Kept (w.knows m) ((World.onDesk prog w).2.knows m) := by
  have hsame : (World.onDesk prog w).2.knows m = w.knows m :=
    knows_engine m (hq w.desk).store rfl
  rw [hsame]
  exact refl_of _ _

/-- **One step** loses nothing known of a price. -/
theorem step_kept (h : s.Noted) (a : Action) :
    Knowledge.Kept (s.world.knows m) ((s.step cfg a).world.knows m) := by
  have hrefl : Knowledge.Kept (s.world.knows m) (s.world.knows m) := refl_of _ _
  cases a with
  | startPlace c => exact kept_startPlace m c
  | curve0 i curve latency dropped =>
    exact kept_resume m fun c wait mm hm => kept_curve0Stretch m s.world hm
  | wake i overran => exact kept_resume m fun c wait mm hm => kept_wakeStretch m s.world hm
  | curve1 i curve => exact kept_resume m fun c wait mm hm => kept_curve1Stretch m s.world hm
  | abort i => exact kept_abort m i
  | cancel order =>
    simp only [step, PumpGrok.cancel]
    split_ifs <;> exact hrefl
  | startMark mint source =>
    simp only [step, startMark]
    split <;> exact hrefl
  | markCurve i curve =>
    simp only [step, markCurve]
    split
    · exact kept_mark m _ _ _ _ _
    · exact hrefl
  | startBook source =>
    simp only [step, startBook]
    split_ifs
    · exact hrefl
    · exact kept_book m fun x hx => absurd hx (List.not_mem_nil)
  | bookCurve i curve => exact kept_bookCurve m h i curve
  | startClose mint ticketId reason =>
    have hsame : (closeStart reason s.world).2.knows m = s.world.knows m :=
      closeStart_knows m reason s.world
    simp only [step, startClose]
    split <;> rename_i w hr <;> rw [hr] at hsame <;> exact hsame ▸ hrefl
  | closeCurve i curve =>
    simp only [step, closeCurve]
    split
    · exact kept_closing m (closePosition_cases cfg _ _ _ _ s.world)
    · exact hrefl
  | graduation mint lastS lastT source =>
    exact kept_closing m (closeOnGraduation_cases cfg mint lastS lastT source s.world)
  | blind mint source => exact kept_closing m (checkBlind_cases cfg mint source s.world)
  | append other =>
    simp only [step]
    split_ifs
    · exact kept_otherRow m other s.world
    · exact hrefl
  | tick ts source =>
    exact kept_quiet m (fun d => Desk.onBreakers_quietly (BreakerSet.noteTick_grown _ _ _ _) d) _
  | miss source =>
    exact kept_quiet m (fun d => Desk.onBreakers_quietly (BreakerSet.noteMiss_grown _ _ _) d) _
  | pollKill source => exact kept_quiet m (pollKillSources_quietly source) _
  | verify =>
    have hsame : (World.onStore LedgerStore.verify s.world).2.knows m = s.world.knows m :=
      verify_knows m s.world
    exact hsame ▸ hrefl
  | env e => cases e <;> exact hrefl

lemma noted_step (h : s.Noted) (a : Action) : (s.step cfg a).Noted := by
  have hgrown : ∀ b : BookMark, b.Noted s.world.mem → b.Noted (s.step cfg a).world.mem :=
    fun b hb x hx =>
      have hk : Knowledge.Kept (s.world.knows x.1) ((s.step cfg a).world.knows x.1) :=
        step_kept x.1 h a
      hk.known (hb x hx)
  intro i b mint pos rest hk
  generalize hb : Marking.book b mint pos rest = k at hk
  cases step_marking cfg hk with
  | stays k hold =>
    subst hb
    exact hgrown b (h i b mint pos rest hold)
  | starts => simp at hb
  | opens b' _ _ _ hs hh hr hv hm =>
    obtain rfl := (Marking.book.inj hb).1
    intro x hx
    simp [hm] at hx
  | reads b₀ b' mint₀ next pos₀ pos' rest₀ curve w hold ha hp =>
    obtain rfl := (Marking.book.inj hb).1
    have hw : (s.step cfg a).world = w := by
      subst ha
      simp only [step, bookCurve, look_book hold, hp, nextBook, (priceOne_pending hp).1]
      rfl
    rw [hw]
    exact noted_price hp (h i _ _ _ _ hold)

/-- What every state of a run has, whatever was marked. -/
structure Minded (s : Sys) : Prop where
  ordered : s.Ordered
  noted : s.Noted
  solid : ∀ m, (s.world.knows m).Solid

lemma minded_start (now e₀ : ℤ) (killswitch : KillSwitch) : (start now e₀ killswitch).Minded where
  ordered := ordered_start now e₀ killswitch
  noted := by
    intro i b mint pos rest hk
    simp [look, start] at hk
  solid := by
    intro m r hr
    simp [World.knows, start] at hr

lemma minded_restart (h : s.Minded) (d : Desk) : (s.restart d).Minded where
  ordered := by
    have hn : ∀ i c p q, ¬ (s.restart d).Holds i c p q := by
      rintro i c p q (h | h) <;> simp [waiting, restart] at h
    have ho := h.ordered.inOrder
    refine ⟨⟨ho.keys, ho.named, ho.drawn, ho.sides, ho.owners, ho.unique⟩, ?_, ?_, ?_, ?_, ?_, ?_,
      h.ordered.once, ?_⟩
    · exact fun i c p q h => absurd h (hn i c p q)
    · exact fun i c p q h => absurd h (hn i c p q)
    · exact fun i j c p q c' p' q' h => absurd h (hn i c p q)
    · exact fun i c p q h => absurd h (hn i c p q)
    · intro i o ho
      simp [restart] at ho
    · intro o
      simp only [restart, Finset.notMem_empty, false_iff]
      rintro ⟨i, c, p, q, h, -⟩
      exact hn i c p q h
    · intro k hk
      simp [restart] at hk
  noted := by
    intro i b mint pos rest hk
    simp [look, restart] at hk
  solid := by
    intro m r hr
    simp [World.knows, restart] at hr

lemma Minded.happen (h : s.Minded) (x : Happening) : (s.happen cfg x).Minded := by
  cases x with
  | act a =>
    exact ⟨(step_move cfg s a).ordered h.ordered, noted_step h.noted a,
      fun m => (step_kept m h.noted a).solid (h.solid m)⟩
  | restart d => exact minded_restart h d

/-! ### The close of a blind position -/

lemma held_iff {w : World} {v : PositionView} :
    heldPosition (w.desk.fold cfg) m = some v ↔ (w.knows m).pos = some v ∧ 0 < v.tokenUnits := by
  rw [heldPosition_some]
  unfold Desk.fold World.knows
  rw [replay_initial_positions]

lemma unfrozen {w : World} {v : PositionView} (h : (w.knows m).pos = some v) :
    v.mtmFrozen = false := (plain_positionsOf _ m v h).1

variable {m} {source : EventSource} {v : PositionView} {w : World}

lemma worth_of {a : Adapter} {valued : Valued}
    (h : lastGoodValue cfg m v a = .ok (some valued)) : Worth cfg a m v valued.proceeds := by
  unfold lastGoodValue at h
  split_ifs at h with hmark
  · cases h
    exact .marked hmark
  · split at h
    · cases h
    · rename_i s t hr
      unfold curveExit at h
      rcases hg : sellOut s t v.tokenUnits with x | gross
      · rw [hg] at h
        cases h
      · rw [hg] at h
        cases h
        exact .sold s t gross (not_lt.mp hmark) hr hg

/-- With a value on the ledger or reserves in memory, there is a value to close at. -/
lemma lastGoodValue_some (hu : 0 < v.tokenUnits) (hs : (w.knows m).Solid)
    (h : 0 < v.lastMtmLamports ∨ (w.knows m).reserves ≠ none) :
    ∃ valued, lastGoodValue cfg m v w.mem = .ok (some valued) := by
  unfold lastGoodValue
  split_ifs with hmark
  · exact ⟨_, rfl⟩
  · obtain ⟨⟨s, t⟩, hr⟩ := Option.ne_none_iff_exists'.mp (h.resolve_left hmark)
    obtain ⟨hs, ht⟩ := hs _ hr
    have hget : w.mem.lastReserves.get m = some (s, t) := hr
    rw [hget]
    have hg : sellOut s t v.tokenUnits = .ok _ := sellOut_ok_iff.mpr ⟨hs, ht, hu, rfl⟩
    simp only [curveExit, hg]
    exact ⟨_, rfl⟩

lemma lastPrice_le {a : Adapter} {last : ℤ} (h : lastPrice a m v = some last) :
    last ≤ lastGood a m v := by
  unfold lastPrice at h
  unfold lastGood
  rcases hts : a.lastPriceTs.get m with - | t <;> rcases hm : v.lastMtmTs with - | t' <;>
    simp only [hts, hm, Option.some.injEq, reduceCtorEq] at h ⊢
  · exact h.symm.le
  · exact h.symm.le
  · exact h ▸ le_max_left _ _

lemma lastPrice_ne_none {a : Adapter} :
    lastPrice a m v ≠ none ↔ a.lastPriceTs.get m ≠ none ∨ v.lastMtmTs ≠ none := by
  unfold lastPrice
  rcases hts : a.lastPriceTs.get m with - | t <;> simp

/-- `check_blind` on a holding. -/
lemma checkBlind_held (hv : heldPosition (w.desk.fold cfg) m = some v) :
    checkBlind cfg m source w =
      if (lastPrice w.mem m v).all fun last => w.desk.now - last ≤ cfg.limits.blindMax then
        (.ok none, w)
      else match lastGoodValue cfg m v w.mem with
        | .error x => (.error x, w)
        | .ok none => (.ok none, w)
        | .ok (some valued) =>
          forceClose cfg
            { mint := m, reason := .blindFlatten, valued := valued, source := source,
              ticketId := none } w := by
  unfold checkBlind
  rw [Prog.bind_run_ok (fold_run cfg w), Prog.bind_run_ok (Prog.read_run _ _),
    Prog.bind_run_ok (now_run w), hv]
  simp only
  split_ifs
  · rfl
  · rcases lastGoodValue cfg m v w.mem with x | (- | valued) <;> rfl

/-- An order id not drawn yet has no fill. -/
lemma Ordered.fill_free (h : s.Ordered) {o : ℕ} (ho : s.world.desk.nextId ≤ o) :
    s.store.byKey (.fill o) = none := by
  refine LedgerStore.byKey_eq_none_iff.mpr fun e he hk => ?_
  have hnamed := h.inOrder.named e he
  unfold Row.Named at hnamed
  rw [show e.toRow.key = .fill o from hk] at hnamed
  obtain ⟨p, hp, hid⟩ := hnamed
  have hdrawn := h.inOrder.drawn e he o (by simp [show e.payload = _ from hp, Payload.order, hid])
  omega

/-- A forced close by `check_blind` closes, or the ledger refuses it. -/
lemma flattens_of {valued : Valued} (hv : heldPosition (w.desk.fold cfg) m = some v)
    (hfree : w.desk.store.byKey (.fill (w.desk.nextId + 1)) = none)
    (hval : lastGoodValue cfg m v w.mem = .ok (some valued))
    (hrun : checkBlind cfg m source w = forceClose cfg
      { mint := m, reason := .blindFlatten, valued := valued, source := source,
        ticketId := none } w) : Flattens cfg m source v w := by
  set f : ForceClose :=
    { mint := m
      reason := .blindFlatten
      valued := valued
      source := source
      ticketId := none } with hf
  rcases forceClose_cases cfg f w with ⟨hn, -⟩ | ⟨u, hu, ⟨-, -, hr⟩ | ⟨hno, x, hr⟩⟩
  · rw [show f.mint = m from rfl, hv] at hn
    cases hn
  · rw [hr] at hrun
    refine .closed _ _ _ hrun rfl rfl rfl (worth_of hval) ?_
    unfold Desk.fold
    rw [replay_initial_positions]
    exact closed_position
  · rw [hr] at hrun
    refine .refused x (congrArg Prod.fst hrun) ?_
    by_contra hall
    simp only [not_or, not_not, Bool.not_eq_true] at hall
    obtain ⟨hcons, hclose, hesc⟩ := hall
    refine hno ⟨hcons, by simp [forceCloseRows, forceCloseFillRow, forceClosePositionRow,
      forceCloseEscalationRow], fun r hr => ?_⟩
    simp only [forceCloseRows, List.mem_cons, List.not_mem_nil, or_false] at hr
    rcases hr with rfl | rfl | rfl
    · exact hfree
    · exact hclose
    · exact hesc

/-- **Blind positions are closed** exactly where every held position has the time of a price and a
value, in memory or on the ledger. -/
theorem Minded.closes_iff (h : s.Minded) :
    s.BlindCloses cfg ↔ ∀ m, (s.world.knows m).Covered := by
  constructor
  · intro hall m v hv hu
    by_contra hnot
    have hheld : heldPosition (s.world.desk.fold cfg) m = some v := (held_iff m).mpr ⟨hv, hu⟩
    set t : ℤ := lastGood s.world.mem m v + cfg.limits.blindMax + 1 with ht
    have hrun : checkBlind cfg m cfg.source (s.world.atTime t) =
        (.ok none, s.world.atTime t) := by
      have hheld' : heldPosition ((s.world.atTime t).desk.fold cfg) m = some v :=
        (held_iff m).mpr ⟨hv, hu⟩
      rw [checkBlind_held hheld']
      split_ifs with hfresh
      · rfl
      · have hts : lastPrice s.world.mem m v ≠ none := by
          intro hn
          rw [show lastPrice (s.world.atTime t).mem m v = none from hn] at hfresh
          simp at hfresh
        have hval : lastGoodValue cfg m v (s.world.atTime t).mem = .ok none := by
          have hno : ¬ (0 < v.lastMtmLamports ∨ (s.world.knows m).reserves ≠ none) :=
            fun hval => hnot ⟨lastPrice_ne_none.mp hts, hval⟩
          simp only [not_or, not_not] at hno
          unfold lastGoodValue
          rw [if_neg hno.1, show (s.world.atTime t).mem.lastReserves.get m = none from hno.2]
        rw [hval]
    cases hall m cfg.source v t hheld (unfrozen m hv) (by omega) with
    | closed e p w' hr =>
      rw [hrun] at hr
      cases hr
    | refused x hr =>
      rw [hrun] at hr
      cases hr
  · intro hcov m source v t hheld hfrozen hlate
    obtain ⟨hv, hu⟩ := (held_iff m).mp hheld
    obtain ⟨hts, hval⟩ := hcov m v hv hu
    have hheld' : heldPosition ((s.world.atTime t).desk.fold cfg) m = some v :=
      (held_iff m).mpr ⟨hv, hu⟩
    obtain ⟨last, hlast⟩ := Option.ne_none_iff_exists'.mp (lastPrice_ne_none.mpr hts)
    have hle := lastPrice_le hlast
    obtain ⟨valued, hvalued⟩ : ∃ valued, lastGoodValue cfg m v s.world.mem =
      .ok (some valued) := lastGoodValue_some hu (h.solid m) hval
    refine flattens_of hheld' (h.ordered.fill_free (Nat.le_succ _)) hvalued ?_
    rw [checkBlind_held hheld']
    have hstale : ¬ ((lastPrice (s.world.atTime t).mem m v).all fun last =>
        (s.world.atTime t).desk.now - last ≤ cfg.limits.blindMax) = true := by
      rw [show lastPrice (s.world.atTime t).mem m v = some last from hlast]
      simp only [Option.all_some, decide_eq_true_eq, not_le]
      show _ < t - last
      omega
    rw [if_neg hstale, show lastGoodValue cfg m v (s.world.atTime t).mem = _ from hvalued]

lemma covered_restart (d : Desk) :
    (∀ m, ((s.restart d).world.knows m).Covered) ↔ s.MarkedAll cfg (.restart d) := by
  constructor
  · intro h m v hheld hfrozen
    obtain ⟨hv, hu⟩ := (held_iff m).mp hheld
    obtain ⟨hts, hval⟩ := h m v hv hu
    exact ⟨hts.resolve_left fun hn => hn rfl, hval.resolve_right fun hn => hn rfl⟩
  · intro h m v hv hu
    have hv' : (s.world.knows m).pos = some v := hv
    obtain ⟨hts, hval⟩ := h m v ((held_iff m).mpr ⟨hv', hu⟩) (unfrozen m hv')
    exact ⟨.inr hts, .inl hval⟩

/-- **Blind positions over runs.** In every state of a run every blind position is closed by
`check_blind`, exactly when each restart of the run finds a mark worth something for every open
position. -/
theorem blind_closed_iff (cfg : DeskConfig) (now e₀ : ℤ) (killswitch : KillSwitch)
    (xs : List Happening) :
    (∀ ys, ys <+: xs → (Runs.after (happen cfg) (start now e₀ killswitch) ys).BlindCloses cfg) ↔
      Runs.Along (happen cfg) (MarkedAll cfg) (start now e₀ killswitch) xs := by
  refine Runs.always_iff_along (J := Minded) (fun s x h => h.happen x) (fun s x h hp => ?_)
    (minded_start now e₀ killswitch) ?_ xs
  · rw [(h.happen x).closes_iff]
    rw [h.closes_iff] at hp
    cases x with
    | act a => exact iff_of_true (fun m => (step_kept m h.noted a).covered (hp m)) trivial
    | restart d => exact covered_restart d
  · rw [(minded_start now e₀ killswitch).closes_iff]
    intro m v hv
    simp [World.knows, start, positionsOf, LedgerStore.read, initialState] at hv

/-- A buy that fills, and a restart before its first mark. -/
def sampleUnmarked : List Happening :=
  (sampleReserves :: samplePlace 0 (sampleBuy 'a' 1)).map .act ++
    [.restart sampleStart.world.desk]

/-- A call of `check_blind` that came back with no row. -/
def leavesOpen : Except Exc (Option Event) → Bool
  | .ok none => true
  | _ => false

/-- A blind position that a call of `check_blind` leaves open. -/
lemma not_closes {cfg : DeskConfig} {s : Sys} (mint : Mint) (source : EventSource) (t : ℤ)
    (hheld : (heldPosition (s.world.desk.fold cfg) mint).any (fun v =>
      decide (v.mtmFrozen = false ∧ cfg.limits.blindMax < t - lastGood s.world.mem mint v)) = true)
    (hleft : leavesOpen (checkBlind cfg mint source (s.world.atTime t)).1 = true) :
    ¬ s.BlindCloses cfg := by
  intro h
  obtain ⟨v, hv, hlate⟩ := (Option.any_eq_true _ _).mp hheld
  obtain ⟨hfrozen, hlate⟩ := of_decide_eq_true hlate
  have hrun : leavesOpen (checkBlind cfg mint source (s.world.atTime t)).1 = false := by
    cases h mint source v t hv hfrozen hlate with
    | closed e p w' hr => rw [hr]; rfl
    | refused x hr => rw [hr]; rfl
  exact Bool.noConfusion (hrun.symm.trans hleft)

/-- Nothing closes the position, however late `check_blind` is called. -/
theorem unmarked_never_closed :
    ¬ ∀ (cfg : DeskConfig) (now e₀ : ℤ) (killswitch : KillSwitch) (xs ys : List Happening),
      ys <+: xs → (Runs.after (happen cfg) (start now e₀ killswitch) ys).BlindCloses cfg :=
  fun h =>
    not_closes (sampleMint 'a') .paper 1000000000000 (by decide +kernel) (by decide +kernel)
      (h sampleConfig 0 10000000000 {} sampleUnmarked sampleUnmarked (List.prefix_refl _))

end Sys

end PumpGrok
