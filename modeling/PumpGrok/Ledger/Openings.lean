import PumpGrok.Ledger.Reducer
import PumpGrok.Ledger.Growth

/-!
Positions by their opening row. A position of the fold has the row that opened it, and no later
row opens or closes its mint; its peak is the highest of its entry and of the marks since.
-/

namespace PumpGrok

/-- The last opening row of each mint. -/
def openedSeq (es : List Event) : Dict Mint ℕ :=
  es.foldl (fun opened e =>
    match e.payload with
    | .positionOpened p => opened.set p.mint e.seq
    | _ => opened) ∅

lemma openedSeq_snoc (es : List Event) (e : Event) :
    openedSeq (es ++ [e]) =
      match e.payload with
      | .positionOpened p => (openedSeq es).set p.mint e.seq
      | _ => openedSeq es := by
  unfold openedSeq
  rw [List.foldl_append]
  rfl

namespace Event

variable (e : Event) (m : Mint)

/-- The row opens or closes a position of the mint. -/
def turns : Bool :=
  match e.payload with
  | .positionOpened p => p.mint = m
  | .positionClosed p => p.mint = m
  | _ => false

/-- The prices a row marks a mint at. -/
def spots : List ℚ :=
  match e.payload with
  | .markToMarket p => (p.prices.filter fun x => x.1 = m).map fun x => x.2.spot
  | _ => []

end Event

/-- The prices the rows mark a mint at. -/
def marksOf (m : Mint) (es : List Event) : List ℚ := es.flatMap (·.spots m)

lemma marksOf_append (m : Mint) (es fs : List Event) :
    marksOf m (es ++ fs) = marksOf m es ++ marksOf m fs := List.flatMap_append

namespace Openings

variable {state : LedgerState} {e : Event} {m : Mint} {view : PositionView}

/-- No position has the empty mint, and none is frozen. -/
structure Plain (state : LedgerState) : Prop where
  named : state.positions.get [] = none
  thawed : ∀ m view, state.positions.get m = some view → view.mtmFrozen = false

/-- A position a row has just opened. -/
structure Opened (e : Event) (m : Mint) (view : PositionView) : Prop where
  row : ∃ p, e.payload = .positionOpened p ∧ p.mint = m ∧ view.priceEntry = p.priceEntry
  named : m ≠ []
  peak : view.pricePeak = view.priceEntry
  thawed : view.mtmFrozen = false

/-- A position a row has left open. -/
structure Kept (state : LedgerState) (e : Event) (m : Mint) (view : PositionView) : Prop where
  turns : e.turns m = false
  old : ∃ view₀, state.positions.get m = some view₀ ∧ view.priceEntry = view₀.priceEntry ∧
    view.pricePeak = (e.spots m).foldl max view₀.pricePeak ∧ view.mtmFrozen = false

lemma Kept.unchanged (h : Plain state) (ht : e.turns m = false) (hs : e.spots m = [])
    (hv : state.positions.get m = some view) : Kept state e m view :=
  ⟨ht, view, hv, rfl, by rw [hs]; rfl, h.thawed m view hv⟩

lemma markPosition_get {ts : ℤ} {P : Dict Mint PositionView} {x : Mint × Mark}
    (hP : ∀ m view, P.get m = some view → view.mtmFrozen = false)
    (h : (markPosition ts P x).get m = some view) :
    ∃ view₀, P.get m = some view₀ ∧ view.priceEntry = view₀.priceEntry ∧
      view.pricePeak = (if x.1 = m then max view₀.pricePeak x.2.spot else view₀.pricePeak) ∧
      view.mtmFrozen = false := by
  unfold markPosition at h
  rcases hx : P.get x.1 with - | pos
  · rw [hx] at h
    have hne : x.1 ≠ m := by
      rintro rfl
      rw [hx] at h
      cases h
    exact ⟨view, h, rfl, by rw [if_neg hne], hP m view h⟩
  · rw [hx] at h
    simp only [hP _ _ hx, Bool.false_eq_true, if_false] at h
    rw [Dict.get_set] at h
    by_cases hm : m = x.1
    · rw [if_pos hm] at h
      obtain rfl := Option.some.inj h
      exact ⟨pos, hm ▸ hx, rfl, by rw [if_pos hm.symm], rfl⟩
    · rw [if_neg hm] at h
      exact ⟨view, h, rfl, by rw [if_neg fun hx => hm hx.symm], hP m view h⟩

lemma foldl_markPosition_get {ts : ℤ} {P : Dict Mint PositionView} {xs : List (Mint × Mark)}
    (hP : ∀ m view, P.get m = some view → view.mtmFrozen = false)
    (h : (xs.foldl (markPosition ts) P).get m = some view) :
    ∃ view₀, P.get m = some view₀ ∧ view.priceEntry = view₀.priceEntry ∧
      view.pricePeak =
        ((xs.filter fun x => x.1 = m).map fun x => x.2.spot).foldl max view₀.pricePeak ∧
      view.mtmFrozen = false := by
  induction xs generalizing P with
  | nil => exact ⟨view, h, rfl, rfl, hP m view h⟩
  | cons x xs ih =>
    have hP' : ∀ m view, (markPosition ts P x).get m = some view → view.mtmFrozen = false :=
      fun m view h => (markPosition_get hP h).choose_spec.2.2.2
    obtain ⟨view₁, h₁, he, hp, hf⟩ := ih hP' h
    obtain ⟨view₀, h₀, he₀, hp₀, -⟩ := markPosition_get hP h₁
    refine ⟨view₀, h₀, he.trans he₀, ?_, hf⟩
    rw [hp, hp₀]
    by_cases hx : x.1 = m
    · simp [hx]
    · simp [hx]

lemma onFill_get {p : FillRecorded} (h : (onFill state p).positions.get m = some view) :
    ∃ view₀, state.positions.get m = some view₀ ∧ view.priceEntry = view₀.priceEntry ∧
      view.pricePeak = view₀.pricePeak ∧ view.mtmFrozen = view₀.mtmFrozen := by
  unfold onFill at h
  simp only [trackPeak_positions] at h
  have hset : ∀ {pos pos' : PositionView}, state.positions.get p.mint = some pos →
      pos'.priceEntry = pos.priceEntry → pos'.pricePeak = pos.pricePeak →
      pos'.mtmFrozen = pos.mtmFrozen →
      (state.positions.set p.mint pos').get m = some view →
      ∃ view₀, state.positions.get m = some view₀ ∧ view.priceEntry = view₀.priceEntry ∧
        view.pricePeak = view₀.pricePeak ∧ view.mtmFrozen = view₀.mtmFrozen := by
    intro pos pos' hpos he hp hf h
    rw [Dict.get_set] at h
    split_ifs at h with hm
    · obtain rfl := Option.some.inj h
      exact ⟨pos, hm ▸ hpos, he, hp, hf⟩
    · exact ⟨view, h, rfl, rfl, rfl⟩
  rcases hpos : state.positions.get p.mint with - | pos
  · rw [hpos] at h
    exact ⟨view, h, rfl, rfl, rfl⟩
  · rw [hpos] at h
    dsimp only at h
    split_ifs at h
    · exact @hset pos (buyInto pos p) hpos rfl rfl rfl h
    · exact @hset pos (sellFrom pos p) hpos rfl rfl rfl h
    · exact ⟨view, h, rfl, rfl, rfl⟩

/-- **Where a position comes from**: the row has just opened it, or has left it open. -/
lemma reduce_get (hp : Plain state) (h : (reduce state e).positions.get m = some view) :
    Opened e m view ∨ Kept state e m view := by
  rw [reduce_positions] at h
  rcases hpay : e.payload with
    p | p | p | p | p | p | p | p | p | p | p | p | p | p | p | p | p | p <;> rw [hpay] at h
  case positionOpened =>
    simp only [handle, onPositionOpened] at h
    split_ifs at h with hmint
    · -- a row without a mint opens nothing
      have hne : p.mint ≠ m := by
        rintro rfl
        rw [hmint, hp.named] at h
        cases h
      exact .inr (.unchanged hp (by simp [Event.turns, hpay, hne]) (by simp [Event.spots, hpay]) h)
    · rw [trackPeak_positions, Dict.get_set] at h
      split_ifs at h with hm
      · obtain rfl := Option.some.inj h
        exact .inl ⟨⟨p, hpay, hm.symm, rfl⟩, hm ▸ hmint, rfl, rfl⟩
      · have hne : p.mint ≠ m := fun he => hm he.symm
        exact .inr
          (.unchanged hp (by simp [Event.turns, hpay, hne]) (by simp [Event.spots, hpay]) h)
  case positionClosed =>
    simp only [handle, onPositionClosed, trackPeak_positions] at h
    rw [Dict.get_erase] at h
    split_ifs at h with hm
    have hne : p.mint ≠ m := fun he => hm he.symm
    exact .inr (.unchanged hp (by simp [Event.turns, hpay, hne]) (by simp [Event.spots, hpay]) h)
  case fillRecorded =>
    obtain ⟨view₀, h₀, he, hpeak, hf⟩ := onFill_get h
    refine .inr ⟨by simp [Event.turns, hpay], view₀, h₀, he, ?_, ?_⟩
    · rw [hpeak]
      simp [Event.spots, hpay]
    · rw [hf, hp.thawed m view₀ h₀]
  case markToMarket =>
    simp only [handle, onMtm, trackPeak_positions] at h
    obtain ⟨view₀, h₀, he, hpeak, hf⟩ := foldl_markPosition_get hp.thawed h
    refine .inr ⟨by simp [Event.turns, hpay], view₀, h₀, he, ?_, hf⟩
    rw [hpeak]
    simp [Event.spots, hpay]
  all_goals
    exact .inr (.unchanged hp (by simp [Event.turns, hpay]) (by simp [Event.spots, hpay]) h)

lemma plain_reduce (hp : Plain state) (e : Event) : Plain (reduce state e) where
  named := by
    rcases h : (reduce state e).positions.get [] with - | view
    · rfl
    · rcases reduce_get hp h with hopen | hkept
      · exact absurd rfl hopen.named
      · obtain ⟨view₀, h₀, -⟩ := hkept.old
        rw [hp.named] at h₀
        cases h₀
  thawed m view h := by
    rcases reduce_get hp h with hopen | hkept
    · exact hopen.thawed
    · obtain ⟨view₀, -, -, -, hf⟩ := hkept.old
      exact hf

lemma plain_replay (equity day : ℤ) (es : List Event) :
    Plain (replay (initialState equity day) es) := by
  induction es using List.reverseRecOn with
  | nil =>
    have hempty : (initialState equity day).positions = ∅ := rfl
    exact ⟨by rw [replay_nil, hempty, Dict.get_empty], fun m view h => by
      rw [replay_nil, hempty, Dict.get_empty] at h
      cases h⟩
  | append_singleton es e ih =>
    rw [replay_append]
    exact plain_reduce ih e

end Openings

/-- A position of the fold, by its opening row. -/
structure Held (es : List Event) (m : Mint) (opening : ℕ) (view : PositionView) : Prop where
  position : (replay (initialState 0 0) es).positions.get m = some view
  opened : (openedSeq es).get m = some opening

/-- The row that opened a position, and its prices since. -/
structure OpenSince (es : List Event) (m : Mint) (opening : ℕ) (view : PositionView) : Prop where
  row : ∃ before e p after, es = before ++ e :: after ∧ e.seq = opening ∧
    e.payload = .positionOpened p ∧ p.mint = m ∧ view.priceEntry = p.priceEntry ∧
    (∀ f ∈ after, f.turns m = false) ∧
    view.pricePeak = (marksOf m after).foldl max p.priceEntry

namespace Held

variable {es fs : List Event} {m : Mint} {opening opening' : ℕ} {view view' : PositionView}

/-- **A position has its opening row**, and its peak is that of the marks since. -/
theorem since_of_position (h : (replay (initialState 0 0) es).positions.get m = some view) :
    ∃ opening, (openedSeq es).get m = some opening ∧ OpenSince es m opening view := by
  induction es using List.reverseRecOn generalizing view with
  | nil =>
    have hempty : (initialState 0 0).positions = ∅ := rfl
    rw [replay_nil, hempty, Dict.get_empty] at h
    cases h
  | append_singleton es e ih =>
    rw [replay_append] at h
    rcases Openings.reduce_get (Openings.plain_replay 0 0 es) h with hopen | hkept
    · obtain ⟨p, hpay, hm, hentry⟩ := hopen.row
      refine ⟨e.seq, ?_, ⟨es, e, p, [], rfl, rfl, hpay, hm, hentry, by simp, ?_⟩⟩
      · rw [openedSeq_snoc, hpay]
        simp [hm]
      · rw [hopen.peak, hentry]
        rfl
    · obtain ⟨view₀, h₀, hentry, hpeak, -⟩ := hkept.old
      obtain ⟨opening, hseq, before, e₀, p, after, hes, hnum, hpay, hm, hentry₀, hafter, hpeak₀⟩ :=
        ih h₀
      refine ⟨opening, ?_, ⟨before, e₀, p, after ++ [e], ?_, hnum, hpay, hm, hentry.trans hentry₀,
        ?_, ?_⟩⟩
      · rw [openedSeq_snoc]
        have hturns := hkept.turns
        split
        · rename_i p' hp'
          have hne : m ≠ p'.mint := by
            rintro rfl
            simp [Event.turns, hp'] at hturns
          rw [Dict.get_set_ne _ _ hne, hseq]
        · exact hseq
      · rw [hes, List.append_assoc, List.cons_append]
      · intro f hf
        rcases List.mem_append.mp hf with hf | hf
        · exact hafter f hf
        · rw [List.mem_singleton.mp hf]
          exact hkept.turns
      · rw [marksOf_append, List.foldl_append, ← hpeak₀, hpeak]
        simp [marksOf]

lemma of_position (h : (replay (initialState 0 0) es).positions.get m = some view) :
    ∃ opening, Held es m opening view := by
  obtain ⟨opening, hseq, -⟩ := since_of_position h
  exact ⟨opening, h, hseq⟩

lemma since (h : Held es m opening view) : OpenSince es m opening view := by
  obtain ⟨opening', hseq, hsince⟩ := since_of_position h.position
  rw [h.opened] at hseq
  obtain rfl := Option.some.inj hseq
  exact hsince

lemma unique (h : Held es m opening view) (h' : Held es m opening' view') :
    opening' = opening ∧ view' = view := by
  constructor
  · exact Option.some.inj (h'.opened.symm.trans h.opened)
  · exact Option.some.inj (h'.position.symm.trans h.position)

lemma foldl_max_le (xs : List ℚ) (q : ℚ) : q ≤ xs.foldl max q := by
  induction xs generalizing q with
  | nil => exact le_rfl
  | cons x xs ih => exact (le_max_left q x).trans (ih _)

lemma of_snoc {e : Event} (h : Held (es ++ [e]) m opening view) :
    (∃ view₀, Held es m opening view₀ ∧ view.priceEntry = view₀.priceEntry ∧
      view₀.pricePeak ≤ view.pricePeak) ∨ opening = e.seq := by
  have hpos := h.position
  have hseq := h.opened
  rw [replay_append] at hpos
  rw [openedSeq_snoc] at hseq
  rcases Openings.reduce_get (Openings.plain_replay 0 0 es) hpos with hopen | hkept
  · obtain ⟨p, hpay, hm, -⟩ := hopen.row
    rw [hpay] at hseq
    simp only [hm, Dict.get_set_self, Option.some.injEq] at hseq
    exact .inr hseq.symm
  · obtain ⟨view₀, h₀, hentry, hpeak, -⟩ := hkept.old
    refine .inl ⟨view₀, ⟨h₀, ?_⟩, hentry, hpeak ▸ foldl_max_le _ _⟩
    have hturns := hkept.turns
    split at hseq
    · rename_i p' hp'
      have hne : m ≠ p'.mint := by
        rintro rfl
        simp [Event.turns, hp'] at hturns
      rwa [Dict.get_set_ne _ _ hne] at hseq
    · exact hseq

/-- A position is an old one, at no lower a peak, or one that a new row has opened. -/
lemma of_append (h : Held (es ++ fs) m opening view) :
    (∃ view₀, Held es m opening view₀ ∧ view.priceEntry = view₀.priceEntry ∧
      view₀.pricePeak ≤ view.pricePeak) ∨ ∃ e ∈ fs, opening = e.seq := by
  induction fs using List.reverseRecOn generalizing view with
  | nil =>
    rw [List.append_nil] at h
    exact .inl ⟨view, h, rfl, le_rfl⟩
  | append_singleton fs e ih =>
    rw [← List.append_assoc] at h
    rcases h.of_snoc with ⟨view₁, h₁, hentry, hpeak⟩ | hnew
    · rcases ih h₁ with ⟨view₀, h₀, hentry₀, hpeak₀⟩ | ⟨f, hf, hnew⟩
      · exact .inl ⟨view₀, h₀, hentry.trans hentry₀, hpeak₀.trans hpeak⟩
      · exact .inr ⟨f, List.mem_append_left _ hf, hnew⟩
    · exact .inr ⟨e, List.mem_append_right _ List.mem_cons_self, hnew⟩

/-- The opening row is one of the rows. -/
lemma opening_le (hn : LedgerStore.Numbered es) (h : Held es m opening view) :
    opening ≤ es.length := by
  obtain ⟨before, e, p, after, hes, rfl, -⟩ := h.since.row
  have hmem : e.seq ∈ es.map (·.seq) := List.mem_map_of_mem (by rw [hes]; simp)
  rw [hn, List.mem_range'_1] at hmem
  omega

end Held

end PumpGrok
