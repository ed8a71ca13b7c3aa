import PumpGrok.Supervisor.ExitBook

/-!
Restarts of the exit book. What a new process rebuilds of a position is the highest of its entry
and the marks since it opened; the running process may have seen a higher price than any mark, or
hold an opening out, and then decides otherwise.
-/

namespace PumpGrok

open LedgerStore

namespace ExitDesk

/-- The ledger is numbered and writable, and the book names no row that is not on it. -/
structure Sound (s : ExitDesk) : Prop where
  numbered : Numbered s.store.read
  consistent : s.store.inconsistent = false
  identity : ∀ m seq, s.book.identity.get m = some seq → seq ≤ s.store.count
  heldOut : ∀ m seq, (m, seq) ∈ s.book.heldOut → seq ≤ s.store.count

variable {s t : ExitDesk}

/-! ### Rows -/

/-- What an append of rows leaves: the same store, or one with the rows at its end. -/
lemma append_store (s : ExitDesk) (rows : List Row) :
    (s.append rows).store = s.store ∨
      s.store.Fresh rows ∧ (s.append rows).store = s.store.commit rows := by
  unfold append
  rcases hr : appendBatch rows s.store with ⟨x | es, st⟩
  · obtain ⟨-, rfl, -⟩ := appendBatch_error_iff.mp hr
    exact .inl rfl
  · obtain ⟨-, -, rfl⟩ | ⟨-, -, hf, -, rfl⟩ := appendBatch_ok_iff.mp hr
    · exact .inl rfl
    · exact .inr ⟨hf, rfl⟩

lemma sound_append (h : s.Sound) (rows : List Row) : (s.append rows).Sound := by
  have hbook : (s.append rows).book = s.book := rfl
  rcases append_store s rows with hst | ⟨-, hst⟩
  · exact ⟨hst ▸ h.numbered, hst ▸ h.consistent, fun m seq hm => hst ▸ h.identity m seq hm,
      fun m seq hm => hst ▸ h.heldOut m seq hm⟩
  · have hle : s.store.count ≤ (s.store.commit rows).count := by
      rw [count_commit]
      omega
    refine ⟨hst ▸ numbered_commit h.numbered, hst ▸ h.consistent, fun m seq hm => ?_,
      fun m seq hm => ?_⟩
    · rw [hst]
      exact (h.identity m seq hm).trans hle
    · rw [hst]
      exact (h.heldOut m seq hm).trans hle

/-- A position after an append is an old one, at no lower a peak, or opened by a new row. -/
lemma held_of_append {rows : List Row} {m : Mint} {opening : ℕ} {view : PositionView}
    (hheld : Held (s.append rows).store.read m opening view) :
    (∃ view₀, Held s.store.read m opening view₀ ∧ view.priceEntry = view₀.priceEntry ∧
      view₀.pricePeak ≤ view.pricePeak) ∨ s.store.count < opening := by
  rcases append_store s rows with hst | ⟨-, hst⟩
  · rw [hst] at hheld
    exact .inl ⟨view, hheld, rfl, le_rfl⟩
  · rw [hst, read_commit] at hheld
    rcases hheld.of_append with hold | ⟨e, he, rfl⟩
    · exact .inl hold
    · have hmem : e.seq ∈ (stamp (s.store.count + 1) rows).map (·.seq) := List.mem_map_of_mem he
      rw [stamp_seqs, List.mem_range'_1] at hmem
      exact .inr hmem.1

/-! ### A sync and a pass keep the book on the ledger -/

lemma sound_sync (h : s.Sound) : s.sync.Sound where
  numbered := h.numbered
  consistent := h.consistent
  identity m seq hm := by
    obtain ⟨view, hheld, -⟩ := ExitBook.held_of_identity hm
    exact hheld.opening_le h.numbered
  heldOut := h.heldOut

/-- A desk whose book has just been synced, and its checks. -/
def checkOnce (s : ExitDesk) (pass : ExitPass) : ExitDesk :=
  { s with
    book := (s.book.checkOnce pass).1
    sold := s.sold ++ (s.book.checkOnce pass).2 }

lemma sound_checkOnce (h : s.Sound) (pass : ExitPass) : (s.sync.checkOnce pass).Sound where
  numbered := h.numbered
  consistent := h.consistent
  identity m seq hm := by
    obtain ⟨hspec, -⟩ := ExitBook.checkOnce_spec s.book s.store pass
    have hid : (s.sync.checkOnce pass).book.identity = s.sync.book.identity := hspec.identity
    rw [hid] at hm
    exact (sound_sync h).identity m seq hm
  heldOut m seq hm := by
    rcases ExitBook.checkOnce_heldOut.mp hm with hm | ⟨sell, hsell, -, hx⟩
    · exact h.heldOut m seq hm
    · obtain ⟨m', opening, view, hheld, -, hsale⟩ := ExitBook.mem_checkOnce_iff.mp hsell
      obtain ⟨-, hopening⟩ := ExitBook.saleOf_opening hsale
      have hseq : seq = opening := (Prod.mk.inj hx).2.trans hopening
      rw [hseq]
      exact hheld.opening_le h.numbered

lemma sound_step (h : s.Sound) (a : Act) : (s.step a).Sound := by
  cases a with
  | rows rows => exact sound_append h rows
  | check pass => exact sound_checkOnce (sound_append (sound_sync h) pass.closes) pass
  | reload exits => exact ⟨h.numbered, h.consistent, h.identity, h.heldOut⟩
  | restart =>
    exact ⟨h.numbered, h.consistent, fun _ _ hm => (nomatch hm), fun _ _ hm => (nomatch hm)⟩

lemma sound_start (exits : ExitsSettings) : (start exits).Sound :=
  ⟨rfl, rfl, fun _ _ hm => (nomatch hm), fun _ _ hm => (nomatch hm)⟩

lemma sound_run (h : s.Sound) (as : List Act) : (Runs.after step s as).Sound :=
  Runs.invariant (I := Sound) (fun _ a h => sound_step h a) h as

lemma sound_after (exits : ExitsSettings) (as : List Act) : (after exits as).Sound :=
  sound_run (sound_start exits) as

/-! ### Two desks that decide alike -/

/-- The two books hold out the same openings of priced positions, and track them at one peak. -/
structure Agree (s t : ExitDesk) : Prop where
  store : t.store = s.store
  exits : t.book.exits = s.book.exits
  sold : t.sold = s.sold
  heldOut : ∀ m opening view, Held s.store.read m opening view →
    0 < scaledPrice view.priceEntry →
    ((m, opening) ∈ t.book.heldOut ↔ (m, opening) ∈ s.book.heldOut)
  peak : ∀ m opening view, Held s.store.read m opening view → 0 < scaledPrice view.priceEntry →
    t.book.peak m opening (restorePeak (scaledPrice view.priceEntry) view.pricePeak) =
      s.book.peak m opening (restorePeak (scaledPrice view.priceEntry) view.pricePeak)

end ExitDesk

namespace ExitBook

variable {b : ExitBook} {m : Mint} {opening : ℕ} {view : PositionView}

lemma le_peak (b : ExitBook) (m : Mint) (opening : ℕ) (q : ℤ) : q ≤ b.peak m opening q := by
  unfold peak
  split
  · split_ifs
    · exact le_max_right _ _
    · exact le_rfl
  · exact le_rfl

lemma peak_raise (b : ExitBook) (m : Mint) (opening : ℕ) {q r : ℤ} (h : q ≤ r) :
    b.peak m opening r = max (b.peak m opening q) r := by
  unfold peak
  split
  · split_ifs
    · rw [max_assoc, max_eq_right h]
    · rw [max_eq_right h]
  · rw [max_eq_right h]

lemma peak_untracked {q : ℤ} (h : b.identity.get m ≠ some opening) : b.peak m opening q = q := by
  unfold peak
  split
  · rw [if_neg h]
  · rfl

/-- A sync keeps the peak of what it tracks, and forgets the peak of what it skips. -/
lemma peak_sync {st : LedgerStore} (h : Held st.read m opening view) :
    (b.sync st).peak m opening (restorePeak (scaledPrice view.priceEntry) view.pricePeak) =
      if b.Skips m opening view then restorePeak (scaledPrice view.priceEntry) view.pricePeak
      else b.peak m opening (restorePeak (scaledPrice view.priceEntry) view.pricePeak) := by
  obtain ⟨hpos, hid, -⟩ := @sync_get b st m opening view h
  by_cases hs : b.Skips m opening view
  · rw [if_pos hs] at hid ⊢
    exact peak_untracked (by rw [hid]; exact Option.some_ne_none _ |>.symm)
  · rw [if_neg hs] at hpos hid ⊢
    have hpeak : (b.sync st).peak m opening
        (restorePeak (scaledPrice view.priceEntry) view.pricePeak) =
        max (b.tracked m opening view).peakPrice
          (restorePeak (scaledPrice view.priceEntry) view.pricePeak) := by
      unfold peak
      rw [hpos, hid]
      exact if_pos rfl
    rw [hpeak]
    exact max_eq_left (le_peak b m opening _)

/-- So does a pass, which raises the peaks by the prices it reads. -/
lemma peak_checkOnce {st : LedgerStore} {pass : ExitPass} (h : Held st.read m opening view) :
    ((b.sync st).checkOnce pass).1.peak m opening
        (restorePeak (scaledPrice view.priceEntry) view.pricePeak) =
      if b.Skips m opening view then restorePeak (scaledPrice view.priceEntry) view.pricePeak
      else max (priced pass (b.tracked m opening view)).peakPrice
        (restorePeak (scaledPrice view.priceEntry) view.pricePeak) := by
  obtain ⟨hpos, hid, -⟩ := @sync_get b st m opening view h
  have hid' : ((b.sync st).checkOnce pass).1.identity = (b.sync st).identity :=
    (checkOnce_spec b st pass).1.identity
  have hpos' := checkOnce_get b st pass m
  by_cases hs : b.Skips m opening view
  · rw [if_pos hs] at hid ⊢
    exact peak_untracked (by rw [hid', hid]; exact (Option.some_ne_none _).symm)
  · rw [if_neg hs] at hpos hid ⊢
    rw [hpos, Option.map_some] at hpos'
    unfold peak
    rw [hpos', hid', hid]
    exact if_pos rfl

/-- The sell of a pass for one position of the ledger. -/
def saleAt (b : ExitBook) (pass : ExitPass) (m : Mint) (opening : ℕ) (view : PositionView) :
    Option RuleSell :=
  if b.Skips m opening view then none
  else saleOf b.exits pass (b.tracked m opening view) opening view.ticketId

lemma saleAt_worthless {pass : ExitPass} (h : scaledPrice view.priceEntry ≤ 0) :
    b.saleAt pass m opening view = none := by
  unfold saleAt saleOf
  split_ifs
  · rfl
  · rfl
  · have hnone : ((b.tracked m opening view).applyPrice (pass.price (b.tracked m opening view).mint)
        b.exits pass.now).2 = none := ExitPosition.exitSignal_worthless h
    rw [hnone]
    rfl

/-- Books that sell alike at every position place the same sells. -/
lemma checkOnce_congr {b' : ExitBook} {st : LedgerStore} {pass : ExitPass}
    (h : ∀ m opening view, Held st.read m opening view →
      b'.saleAt pass m opening view = b.saleAt pass m opening view) :
    ((b'.sync st).checkOnce pass).2 = ((b.sync st).checkOnce pass).2 := by
  have hlist : ∀ c : ExitBook, ((c.sync st).checkOnce pass).2 =
      (replay (initialState 0 0) st.read).positions.entries.filterMap fun x =>
        ((c.track (openedSeq st.read) x.1 x.2).map Tracked.position).bind
          ((c.sync st).sellOf pass) := by
    intro c
    rw [(checkOnce_spec c st pass).2, sync_values, List.filterMap_filterMap]
  have hat : ∀ (c : ExitBook) {m : Mint} {opening : ℕ} {view : PositionView},
      Held st.read m opening view →
      ((c.track (openedSeq st.read) m view).map Tracked.position).bind ((c.sync st).sellOf pass) =
        c.saleAt pass m opening view := by
    intro c m opening view hheld
    rw [track_held hheld]
    unfold saleAt
    by_cases hs : c.Skips m opening view
    · rw [if_pos hs, if_pos hs]
      rfl
    · rw [if_neg hs, if_neg hs, Option.map_some, Option.bind_some]
      exact sellOf_tracked hheld hs
  rw [hlist b', hlist b]
  refine List.filterMap_congr fun x hx => ?_
  obtain ⟨opening, hheld⟩ := Held.of_position ((Dict.mem_entries_iff _ x.1 x.2).mp hx)
  rw [hat b' hheld, hat b hheld]
  exact h x.1 opening x.2 hheld

end ExitBook

namespace ExitDesk

variable {s t : ExitDesk}

namespace Agree

variable (h : Agree s t)

include h

lemma append (hs : s.Sound) (ht : t.Sound) (rows : List Row) :
    Agree (s.append rows) (t.append rows) := by
  have hstore : (t.append rows).store = (s.append rows).store := by
    unfold ExitDesk.append
    rw [h.store]
  have hcount : t.store.count = s.store.count := by rw [h.store]
  refine ⟨hstore, h.exits, h.sold, fun m opening view hheld hpos => ?_,
    fun m opening view hheld hpos => ?_⟩
  · rcases held_of_append hheld with ⟨view₀, h₀, hentry, -⟩ | hnew
    · rw [hentry] at hpos
      exact h.heldOut m opening view₀ h₀ hpos
    · refine iff_of_false (fun hm => ?_) fun hm => ?_
      · have := ht.heldOut m opening hm
        omega
      · have := hs.heldOut m opening hm
        omega
  · rcases held_of_append hheld with ⟨view₀, h₀, hentry, hpeak⟩ | hnew
    · have h₀peak := h.peak m opening view₀ h₀ (hentry ▸ hpos)
      have hle := restorePeak_mono (scaledPrice view₀.priceEntry) hpeak
      rw [hentry]
      have hs' := s.book.peak_raise m opening hle
      have ht' := t.book.peak_raise m opening hle
      exact (ht'.trans (h₀peak ▸ rfl)).trans hs'.symm
    · have hsid : s.book.identity.get m ≠ some opening := fun hm => by
        have := hs.identity m opening hm
        omega
      have htid : t.book.identity.get m ≠ some opening := fun hm => by
        have := ht.identity m opening hm
        omega
      exact (ExitBook.peak_untracked htid).trans (ExitBook.peak_untracked hsid).symm

lemma skips_iff {m : Mint} {opening : ℕ} {view : PositionView}
    (hheld : Held s.store.read m opening view) (hpos : 0 < scaledPrice view.priceEntry) :
    t.book.Skips m opening view ↔ s.book.Skips m opening view :=
  or_congr Iff.rfl (h.heldOut m opening view hheld hpos)

lemma tracked_eq {m : Mint} {opening : ℕ} {view : PositionView}
    (hheld : Held s.store.read m opening view) (hpos : 0 < scaledPrice view.priceEntry) :
    t.book.tracked m opening view = s.book.tracked m opening view := by
  unfold ExitBook.tracked
  rw [h.peak m opening view hheld hpos]

lemma sync : Agree s.sync t.sync := by
  refine ⟨h.store, h.exits, h.sold, h.heldOut, fun m opening view hheld hpos => ?_⟩
  have hheld' : Held t.store.read m opening view := h.store ▸ hheld
  have hs := @ExitBook.peak_sync s.book m opening view s.store hheld
  have ht := @ExitBook.peak_sync t.book m opening view t.store hheld'
  refine ht.trans (Eq.trans ?_ hs.symm)
  rw [if_congr (h.skips_iff hheld hpos) rfl rfl, h.peak m opening view hheld hpos]

lemma saleAt_eq {pass : ExitPass} {m : Mint} {opening : ℕ} {view : PositionView}
    (hheld : Held s.store.read m opening view) :
    t.book.saleAt pass m opening view = s.book.saleAt pass m opening view := by
  by_cases hpos : 0 < scaledPrice view.priceEntry
  · unfold ExitBook.saleAt
    rw [if_congr (h.skips_iff hheld hpos) rfl rfl, h.tracked_eq hheld hpos, h.exits]
  · rw [ExitBook.saleAt_worthless (not_lt.mp hpos), ExitBook.saleAt_worthless (not_lt.mp hpos)]

lemma sells_eq (pass : ExitPass) :
    (t.sync.book.checkOnce pass).2 = (s.sync.book.checkOnce pass).2 := by
  have hsells := @ExitBook.checkOnce_congr s.book t.book s.store pass
    fun m opening view hheld => h.saleAt_eq hheld
  unfold ExitDesk.sync
  rw [h.store]
  exact hsells

lemma checkOnce (pass : ExitPass) : Agree (s.sync.checkOnce pass) (t.sync.checkOnce pass) := by
  have hsells := h.sells_eq pass
  have hexits : ∀ u : ExitDesk, (u.sync.checkOnce pass).book.exits = u.book.exits := fun u =>
    (ExitBook.checkOnce_spec u.book u.store pass).1.exits
  refine ⟨h.store, ?_, ?_, fun m opening view hheld hpos => ?_, fun m opening view hheld hpos => ?_⟩
  · rw [hexits, hexits, h.exits]
  · unfold ExitDesk.checkOnce
    dsimp only
    rw [hsells]
    exact congrArg (· ++ _) h.sold
  · refine ExitBook.checkOnce_heldOut.trans (Iff.trans ?_ ExitBook.checkOnce_heldOut.symm)
    exact or_congr (h.heldOut m opening view hheld hpos) (iff_of_eq (by
      change (∃ sell ∈ (t.sync.book.checkOnce pass).2, _) = _
      rw [hsells]
      rfl))
  · have hheld' : Held t.store.read m opening view := h.store ▸ hheld
    have hs := @ExitBook.peak_checkOnce s.book m opening view s.store pass hheld
    have ht := @ExitBook.peak_checkOnce t.book m opening view t.store pass hheld'
    refine ht.trans (Eq.trans ?_ hs.symm)
    rw [if_congr (h.skips_iff hheld hpos) rfl rfl, h.tracked_eq hheld hpos]

lemma step (hs : s.Sound) (ht : t.Sound) (a : Act) : Agree (s.step a) (t.step a) := by
  cases a with
  | rows rows => exact h.append hs ht rows
  | check pass =>
    exact (h.sync.append (sound_sync hs) (sound_sync ht) pass.closes).checkOnce pass
  | reload exits => exact ⟨h.store, rfl, h.sold, h.heldOut, h.peak⟩
  | restart =>
    refine ⟨h.store, h.exits, h.sold, fun _ _ _ _ _ => Iff.rfl, fun _ _ _ _ _ => rfl⟩

end Agree

/-- **Desks that agree sell alike**, whatever happens. -/
lemma agree_run (h : Agree s t) (hs : s.Sound) (ht : t.Sound) (as : List Act) :
    Agree (Runs.after ExitDesk.step s as) (Runs.after ExitDesk.step t as) := by
  induction as generalizing s t with
  | nil => exact h
  | cons a as ih => exact ih (h.step hs ht a) (sound_step hs a) (sound_step ht a)

/-! ### What a restart rebuilds -/

/-- A position as a new process tracks it: from its opening row, at the highest of its entry and
of the marks since. -/
structure Rebuilt (es : List Event) (m : Mint) (position : ExitPosition) : Prop where
  entry_le : position.entryPrice ≤ position.peakPrice
  since : ∃ before e p after, es = before ++ e :: after ∧ e.payload = .positionOpened p ∧
    p.mint = m ∧ (∀ f ∈ after, f.turns m = false) ∧
    position.entryPrice = scaledPrice p.priceEntry ∧
    position.peakPrice = ((marksOf m after).map scaledPrice).foldl max position.entryPrice

lemma scaledPrice_foldl_max (xs : List ℚ) (q : ℚ) :
    scaledPrice (xs.foldl max q) = (xs.map scaledPrice).foldl max (scaledPrice q) := by
  induction xs generalizing q with
  | nil => rfl
  | cons x xs ih => rw [List.foldl_cons, ih, scaledPrice_max, List.map_cons, List.foldl_cons]

lemma rebuilt_of_held {m : Mint} {opening : ℕ} {view : PositionView}
    (h : Held s.store.read m opening view) (hu : 0 < view.tokenUnits) :
    ∃ position, s.restart.sync.book.positions.get m = some position ∧
      Rebuilt s.store.read m position := by
  have hs : ¬ s.restart.book.Skips m opening view := by
    rintro (hle | hmem)
    · omega
    · cases hmem
  have hget := (@ExitBook.sync_get s.restart.book s.store m opening view h).1
  rw [if_neg hs] at hget
  refine ⟨_, hget, entry_le_restorePeak _ _, ?_⟩
  obtain ⟨before, e, p, after, hes, -, hpay, hm, hentry, hafter, hpeak⟩ := h.since.row
  refine ⟨before, e, p, after, hes, hpay, hm, hafter, congrArg scaledPrice hentry, ?_⟩
  have hfold : scaledPrice view.pricePeak =
      ((marksOf m after).map scaledPrice).foldl max (scaledPrice view.priceEntry) := by
    rw [hpeak, scaledPrice_foldl_max, hentry]
  have hle : scaledPrice view.priceEntry ≤ scaledPrice view.pricePeak := by
    rw [hpeak, hentry]
    exact scaledPrice_mono (Held.foldl_max_le _ _)
  exact (max_eq_right hle).trans hfold

/-! ### When a restart changes nothing -/

/-- Of every priced position of the ledger, the process holds nothing that the ledger does not: its
opening is not held out, and no price it has seen is above the entry and the marks. -/
def Remembered (s : ExitDesk) : Prop :=
  ∀ m opening view, Held s.store.read m opening view → 0 < scaledPrice view.priceEntry →
    (m, opening) ∉ s.book.heldOut ∧
      (s.book.identity.get m = some opening → ∀ position, s.book.positions.get m = some position →
        position.peakPrice ≤ restorePeak (scaledPrice view.priceEntry) view.pricePeak)

lemma agree_restart (h : s.Remembered) : Agree s s.restart := by
  refine ⟨rfl, rfl, rfl, fun m opening view hheld hpos => ?_, fun m opening view hheld hpos => ?_⟩
  · exact iff_of_false (fun hm => by cases hm) (h m opening view hheld hpos).1
  · have hrest : s.restart.book.peak m opening
        (restorePeak (scaledPrice view.priceEntry) view.pricePeak) =
        restorePeak (scaledPrice view.priceEntry) view.pricePeak := rfl
    rw [hrest]
    unfold ExitBook.peak
    split
    · rename_i prior hprior
      split_ifs with hid
      · exact (max_eq_right ((h m opening view hheld hpos).2 hid prior hprior)).symm
      · rfl
    · rfl

/-! ### A pass that tells a restart -/

/-- Reserves at a scaled price. -/
def curveAt (price : ℤ) : CurveSnapshot := { sLamports := price, tUnits := 1000000000 }

/-- A pass that reads one mint. -/
def passAt (m : Mint) (price : ℤ) : ExitPass where
  now := 0
  curve := fun k => if k = m then some (curveAt price) else none

@[simp] lemma passAt_price (m : Mint) (price : ℤ) : (passAt m price).price m = price := by
  unfold ExitPass.price passAt curveAt spot
  simp only [if_true]
  have hnot : ¬ (1000000000 : ℤ) ≤ 0 := by norm_num
  rw [if_neg hnot]
  have hscale : ((price : ℚ) / ((1000000000 : ℤ) : ℚ)) * (priceScale : ℚ) = (price : ℚ) := by
    unfold priceScale
    push_cast
    field_simp
  unfold scaledPrice
  dsimp only
  rw [hscale, Decimals.roundHalfUp_intCast]

/-- A buy fill of a held mint. -/
def topUpFill (m : Mint) (units : ℤ) : FillRecorded where
  orderId := 0
  decisionId := none
  side := .buy
  mint := m
  filledLamports := 0
  filledUnits := units
  filledFraction := 1
  priceAvg := 0
  venueTxRef := 0

def topUp (key : Key) (m : Mint) (units : ℤ) : Row where
  ts := 0
  source := .paper
  key := key
  payload := .fillRecorded (topUpFill m units)

lemma held_topUp {es : List Event} {m : Mint} {opening : ℕ} {view : PositionView}
    (h : Held es m opening view) (key : Key) (units : ℤ) (seq : ℕ) :
    Held (es ++ [{ topUp key m units with seq := seq }]) m opening
      (buyInto view (topUpFill m units)) where
  position := by
    rw [replay_append]
    simp only [replay_cons, replay_nil, reduce_positions, handle, topUp, onFill,
      trackPeak_positions]
    rw [show (topUpFill m units).mint = m from rfl, h.position]
    exact Dict.get_set_self _ _ _
  opened := by
    rw [openedSeq_snoc]
    exact h.opened

lemma exists_freshKey (st : LedgerStore) : ∃ key, st.byKey key = none := by
  have hfin : (Set.range Key.other ∩ {k | k ∈ st.read.map (·.key)}).Finite :=
    (List.finite_toSet _).subset Set.inter_subset_right
  have hinf : (Set.range Key.other).Infinite :=
    Set.infinite_range_of_injective fun a b h => Key.other.inj h
  obtain ⟨key, hkey, hnot⟩ := hinf.exists_notMem_finite hfin
  refine ⟨key, byKey_eq_none_iff.mpr fun e he hk => hnot ⟨hkey, ?_⟩⟩
  exact List.mem_map.mpr ⟨e, he, hk⟩

/-- The sells of a pass without closes. -/
lemma check_sold (pass : ExitPass) (hc : pass.closes = []) :
    ∃ sells, (s.check pass).sold = s.sold ++ sells ∧ ∀ sell, sell ∈ sells ↔
      ∃ m opening view, Held s.store.read m opening view ∧
        s.book.saleAt pass m opening view = some sell := by
  have hstore : (s.sync.append pass.closes).store = s.store := by
    unfold append
    rw [hc]
    rfl
  have hbook : (s.sync.append pass.closes).book = s.book.sync s.store := rfl
  refine ⟨((s.sync.append pass.closes).sync.book.checkOnce pass).2, rfl, fun sell => ?_⟩
  have hsynced : (s.sync.append pass.closes).sync.book = (s.book.sync s.store).sync s.store := by
    change (s.sync.append pass.closes).book.sync (s.sync.append pass.closes).store = _
    rw [hbook, hstore]
  rw [hsynced, ExitBook.mem_checkOnce_iff]
  refine exists_congr fun m => exists_congr fun opening => exists_congr fun view => ?_
  refine and_congr_right fun hheld => ?_
  unfold ExitBook.saleAt
  by_cases hs : s.book.Skips m opening view
  · rw [if_pos hs]
    exact iff_of_false (fun h => h.1 hs) (by simp)
  · have htracked : (s.book.sync s.store).tracked m opening view =
        s.book.tracked m opening view := by
      unfold ExitBook.tracked
      rw [ExitBook.peak_sync hheld, if_neg hs]
    rw [if_neg hs, htracked]
    exact and_iff_right hs

/-- The thresholds of a profit rule alone. -/
def profitOnly (pct : ℚ≥0) : ExitsSettings :=
  { stopLossPct := 0, takeProfitPct := pct, trailingStopPct := 0, maxHoldSeconds := 0 }

/-- What one pass at one price tells of a position with units: whether its sell is placed. -/
def Sells (s : ExitDesk) (cfg : ExitsSettings) (m : Mint) (opening : ℕ) (view : PositionView)
    (price : ℤ) : Prop :=
  ¬ s.book.Skips m opening view ∧
    (((s.book.tracked m opening view).applyPrice price cfg 0).2).isSome

lemma saleAt_isSome {cfg : ExitsSettings} {m : Mint} {opening : ℕ} {view : PositionView} {price : ℤ}
    (hp : 0 < price) :
    (({ s.book with exits := cfg } : ExitBook).saleAt (passAt m price) m opening view).isSome ↔
      s.Sells cfg m opening view price := by
  have hprice : (passAt m price).price
      ((({ s.book with exits := cfg } : ExitBook).tracked m opening view).mint) = price :=
    passAt_price m price
  unfold ExitBook.saleAt ExitBook.saleOf Sells
  by_cases hs : s.book.Skips m opening view
  · have hs' : ({ s.book with exits := cfg } : ExitBook).Skips m opening view := hs
    rw [if_pos hs']
    exact iff_of_false Bool.false_ne_true fun h => h.1 hs
  · have hs' : ¬ ({ s.book with exits := cfg } : ExitBook).Skips m opening view := hs
    rw [if_neg hs', hprice, if_neg (not_le.mpr hp), Option.isSome_map]
    exact (and_iff_right hs).symm

lemma mint_of_saleAt {b : ExitBook} {pass : ExitPass} {m : Mint} {opening : ℕ}
    {view : PositionView} {sell : RuleSell} (h : b.saleAt pass m opening view = some sell) :
    sell.mint = m := by
  unfold ExitBook.saleAt at h
  split_ifs at h
  exact (ExitBook.saleOf_opening h).1

lemma exists_sell_iff {sells : List RuleSell} {pass : ExitPass} {m : Mint} {opening : ℕ}
    {view : PositionView} (hheld : Held s.store.read m opening view)
    (hsells : ∀ sell, sell ∈ sells ↔ ∃ m opening view, Held s.store.read m opening view ∧
      s.book.saleAt pass m opening view = some sell) :
    (∃ sell ∈ sells, sell.mint = m) ↔ (s.book.saleAt pass m opening view).isSome := by
  rw [Option.isSome_iff_exists]
  constructor
  · rintro ⟨sell, hsell, hmint⟩
    obtain ⟨m', opening', view', hheld', hat⟩ := (hsells sell).mp hsell
    obtain rfl : m' = m := (mint_of_saleAt hat).symm.trans hmint
    obtain ⟨rfl, rfl⟩ := hheld.unique hheld'
    exact ⟨sell, hat⟩
  · rintro ⟨sell, hat⟩
    exact ⟨sell, (hsells sell).mpr ⟨m, opening, view, hheld, hat⟩, mint_of_saleAt hat⟩

/-- Where every continuation sells alike after a restart, so does any pass at one price, with one
unit of the position on the ledger. -/
lemma sells_restart (hs : s.Sound)
    (h : ∀ bs, (Runs.after step s bs).sold = (Runs.after step s.restart bs).sold)
    {m : Mint} {opening : ℕ} {view : PositionView} (hheld : Held s.store.read m opening view) :
    ∃ view', view'.tokenUnits = 1 ∧ view'.priceEntry = view.priceEntry ∧
      view'.pricePeak = view.pricePeak ∧ ∀ cfg price, 0 < price →
        (s.Sells cfg m opening view' price ↔ s.restart.Sells cfg m opening view' price) := by
  obtain ⟨key, hkey⟩ := exists_freshKey s.store
  let row := topUp key m (1 - view.tokenUnits)
  have hstore : ∀ u : ExitDesk, u.store = s.store →
      (u.append [row]).store = s.store.commit [row] := by
    intro u hu
    have hfresh : s.store.Fresh [row] := fresh_singleton.mpr hkey
    unfold append
    rw [hu, appendBatch_ok_iff.mpr
      (.inr ⟨List.cons_ne_nil _ _, hs.consistent, hfresh, rfl, rfl⟩)]
  -- the position after its units are topped up to one
  have hheld' : ∀ u : ExitDesk, u.store = s.store → Held (u.append [row]).store.read m opening
      (buyInto view (topUpFill m (1 - view.tokenUnits))) := by
    intro u hu
    rw [hstore u hu, read_commit]
    exact held_topUp hheld key _ _
  let topped := buyInto view (topUpFill m (1 - view.tokenUnits))
  have hone : topped.tokenUnits = 1 := by
    change view.tokenUnits + (1 - view.tokenUnits) = 1
    omega
  refine ⟨topped, hone, rfl, rfl, fun cfg price hp => ?_⟩
  let reloaded := fun u : ExitDesk => (u.append [row]).step (.reload cfg)
  have hat : ∀ u : ExitDesk, u.store = s.store → Held (reloaded u).store.read m opening topped :=
    hheld'
  have hsold := h [.rows [row], .reload cfg, .check (passAt m price)]
  obtain ⟨sells, hsells, hmem⟩ := @check_sold (reloaded s) (passAt m price) rfl
  obtain ⟨sells', hsells', hmem'⟩ := @check_sold (reloaded s.restart) (passAt m price) rfl
  have heq : sells = sells' := by
    have hall : s.sold ++ sells = s.sold ++ sells' := hsells.symm.trans (hsold.trans hsells')
    exact List.append_cancel_left hall
  calc s.Sells cfg m opening topped price
      ↔ ((reloaded s).book.saleAt (passAt m price) m opening topped).isSome :=
        (@saleAt_isSome s cfg m opening topped price hp).symm
    _ ↔ ∃ sell ∈ sells, sell.mint = m := (exists_sell_iff (hat s rfl) hmem).symm
    _ ↔ ∃ sell ∈ sells', sell.mint = m := by rw [heq]
    _ ↔ ((reloaded s.restart).book.saleAt (passAt m price) m opening topped).isSome :=
        exists_sell_iff (hat s.restart rfl) hmem'
    _ ↔ s.restart.Sells cfg m opening topped price :=
        @saleAt_isSome s.restart cfg m opening topped price hp

/-- At twice its entry a position meets a profit rule of a hundred percent. -/
lemma profit_signals {position : ExitPosition} (hpos : 0 < position.entryPrice) :
    ((position.applyPrice (2 * position.entryPrice) (profitOnly 100) 0).2).isSome := by
  have hopen : ¬ (2 * position.entryPrice ≤ 0 ∨ position.entryPrice ≤ 0) := by omega
  have hne : (position.entryPrice : ℚ) ≠ 0 := Int.cast_ne_zero.mpr hpos.ne'
  have hchange : (position.ratchet (2 * position.entryPrice)).pnlPct (2 * position.entryPrice) =
      100 := by
    unfold ExitPosition.pnlPct ExitPosition.ratchet
    dsimp only
    rw [if_neg (not_le.mpr hpos)]
    push_cast
    field_simp
    ring
  unfold ExitPosition.applyPrice ExitPosition.exitSignal profitOnly
  dsimp only
  rw [hchange]
  simp only [ExitPosition.ratchet, hopen, if_false]
  norm_num

/-- At the price of a lower peak, a trailing stop set at the fall from the higher one fires for
the higher one alone. -/
lemma trailing_tells {position other : ExitPosition} {q : ℤ} (hpos : 0 < position.entryPrice)
    (hentry : other.entryPrice = position.entryPrice) (hq : position.entryPrice ≤ q)
    (hpeak : q < position.peakPrice) (hother : other.peakPrice = q) :
    ∃ cfg, ((position.applyPrice q cfg 0).2).isSome ∧ ¬ ((other.applyPrice q cfg 0).2).isSome := by
  have hpeak' : (0 : ℚ) < position.peakPrice := by
    exact_mod_cast hpos.trans_le (hq.trans hpeak.le)
  have hfall : (0 : ℚ) < ((position.peakPrice : ℚ) - q) / position.peakPrice * 100 := by
    have hlt : (q : ℚ) < position.peakPrice := by exact_mod_cast hpeak
    have hdiff : (0 : ℚ) < (position.peakPrice : ℚ) - q := by linarith
    positivity
  let pct : ℚ≥0 := ⟨((position.peakPrice : ℚ) - q) / position.peakPrice * 100, hfall.le⟩
  have hpct : pct ≠ 0 := by
    intro h
    have h0 : ((pct : ℚ≥0) : ℚ) = 0 := by rw [h]; rfl
    exact hfall.ne' h0
  have hprice : 0 < q := hpos.trans_le hq
  refine ⟨ExitPosition.trailingOnly pct, ?_, ?_⟩
  · have hpos' : 0 < (position.ratchet q).entryPrice := hpos
    have hmax : max (position.ratchet q).peakPrice q = position.peakPrice := by
      unfold ExitPosition.ratchet
      dsimp only
      omega
    refine (ExitPosition.exitSignal_trailing hpos' hprice hpct).mpr ?_
    rw [hmax]
    exact ⟨hq.trans_lt hpeak, le_rfl⟩
  · have hpos' : 0 < (other.ratchet q).entryPrice := by
      change 0 < other.entryPrice
      omega
    have hmax : max (other.ratchet q).peakPrice q = q := by
      unfold ExitPosition.ratchet
      dsimp only
      omega
    intro hsome
    have hdrop := ((ExitPosition.exitSignal_trailing hpos' hprice hpct).mp hsome).2
    rw [hmax, sub_self, zero_div, zero_mul] at hdrop
    exact absurd hdrop (not_le.mpr hfall)

/-- **Only what the ledger remembers survives**: where every continuation sells alike after a
restart, the process held nothing else. -/
lemma remembered_of_survives (hs : s.Sound)
    (h : ∀ bs, (Runs.after step s bs).sold = (Runs.after step s.restart bs).sold) :
    s.Remembered := by
  intro m opening view hheld hpos
  have hrestart : ∀ view' : PositionView, view'.tokenUnits = 1 →
      ¬ s.restart.book.Skips m opening view' := by
    rintro view' hunits (hle | hmem)
    · omega
    · cases hmem
  have hkept : (m, opening) ∉ s.book.heldOut := by
    intro hmem
    have hp : 0 < 2 * scaledPrice view.priceEntry := by omega
    obtain ⟨view', hunits, hentry, -, hiff⟩ := sells_restart hs h hheld
    have hsell : s.restart.Sells (profitOnly 100) m opening view'
        (2 * scaledPrice view.priceEntry) := by
      refine ⟨hrestart view' hunits, ?_⟩
      have hsig := @profit_signals (s.restart.book.tracked m opening view')
        (by change 0 < scaledPrice view'.priceEntry; rw [hentry]; exact hpos)
      have hscaled : (s.restart.book.tracked m opening view').entryPrice =
          scaledPrice view.priceEntry := congrArg scaledPrice hentry
      rwa [hscaled] at hsig
    exact ((hiff _ _ hp).mpr hsell).1 (.inr hmem)
  refine ⟨hkept, fun hid position hposition => ?_⟩
  by_contra hlow
  rw [not_le] at hlow
  obtain ⟨view', hunits, hentry, hpeak, hiff⟩ := sells_restart hs h hheld
  have hle := entry_le_restorePeak (scaledPrice view.priceEntry) view.pricePeak
  generalize hq : restorePeak (scaledPrice view.priceEntry) view.pricePeak = q at hlow hle
  have hq' : restorePeak (scaledPrice view'.priceEntry) view'.pricePeak = q := by
    rw [hentry, hpeak, hq]
  have hmine : (s.book.tracked m opening view').peakPrice = position.peakPrice := by
    unfold ExitBook.tracked ExitBook.peak
    simp only [hposition, hid, if_true, hq']
    omega
  have hfresh : (s.restart.book.tracked m opening view').peakPrice = q := hq'
  have hpos' : 0 < (s.book.tracked m opening view').entryPrice := by
    change 0 < scaledPrice view'.priceEntry
    rw [hentry]
    exact hpos
  have hlow' : (s.book.tracked m opening view').entryPrice ≤ q := by
    change scaledPrice view'.priceEntry ≤ q
    rw [hentry]
    exact hle
  obtain ⟨cfg, hfires, hholds⟩ :=
    trailing_tells hpos' (rfl : (s.restart.book.tracked m opening view').entryPrice = _) hlow'
      (hmine ▸ hlow) hfresh
  have hkept' : ¬ s.book.Skips m opening view' := by
    rintro (hunits' | hmem)
    · omega
    · exact hkept hmem
  exact hholds ((hiff cfg q (hpos.trans_le hle)).mp ⟨hkept', hfires⟩).2

/-- **A restart and the exit rules.** After every run, a new process rebuilds each open position
from its opening row, at the highest of its entry and of the marks since; and it goes on to place
the sells of the uninterrupted process, whatever follows, exactly when that process holds no opening
out and has seen no price above them. -/
theorem peak_survives_iff (exits : ExitsSettings) (as : List Act) :
    (∀ m opening view, Held (after exits as).store.read m opening view → 0 < view.tokenUnits →
      ∃ position, (after exits as).restart.sync.book.positions.get m = some position ∧
        Rebuilt (after exits as).store.read m position) ∧
    ((∀ bs, (Runs.after step (after exits as) bs).sold =
        (Runs.after step (after exits as).restart bs).sold) ↔ (after exits as).Remembered) := by
  refine ⟨fun m opening view => rebuilt_of_held, remembered_of_survives (sound_after exits as), ?_⟩
  intro h bs
  have hsound := sound_after exits as
  exact (agree_run (agree_restart h) hsound (sound_step hsound .restart) bs).sold.symm

def climbMint : Mint := List.replicate 32 'a'

/-- A position that opens at a scaled price of 100. -/
def climbOpened : Row where
  ts := 0
  source := .paper
  key := .position 1
  payload := .positionOpened
    { mint := climbMint
      priceEntry := 100 / 1000000000
      tokenUnits := 1000
      costBasisLamports := 1000
      openedTs := 0
      creator := []
      ticketId := ['t'] }

/-- A mark of it at 150. -/
def climbMarked : Row where
  ts := 1
  source := .paper
  key := .mtm climbMint 1
  payload := .markToMarket
    { tsSource := 1
      cashLamports := 0
      equityLamports := 1500
      unrealizedLamports := 500
      prices := [(climbMint,
        { mtmLamports := 1500, venueFeeLamports := 0, spot := 150 / 1000000000, ts := none })] }

/-- The position is marked at 150, and a pass reads 160. -/
def sampleClimb : List Act :=
  [.rows [climbOpened], .rows [climbMarked], .check (passAt climbMint 160)]

/-- At 104 the process that has seen 160 sells, and a new one does not. -/
theorem climb_forgotten :
    (Runs.after step (after {} sampleClimb) [.check (passAt climbMint 104)]).sold.map
        RuleSell.rule = [.trailingStop] ∧
      (Runs.after step (after {} sampleClimb).restart [.check (passAt climbMint 104)]).sold =
        [] := by
  decide +kernel

end ExitDesk

end PumpGrok
