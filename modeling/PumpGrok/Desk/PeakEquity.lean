import PumpGrok.Desk.Books

/-!
The peak of the equity. Folding a row raises the peak to the equity after it and never lowers it;
inside a batch the equity stays below that of one of its ends, so the order of the rows of one
trade leaves no trace in the peak.
-/

namespace PumpGrok

/-! ### One row -/

section Rows

variable {s t : LedgerState}

/-- The equity is that of the cash and the positions. -/
lemma equity_congr (hc : s.cashLamports = t.cashLamports) (hp : s.positions = t.positions) :
    equityLamports s = equityLamports t := by
  rw [equityLamports, equityLamports, hc, hp]

@[simp] lemma trackPeak_equity (s : LedgerState) :
    equityLamports (trackPeak s) = equityLamports s :=
  equity_congr (trackPeak_cash s) (trackPeak_positions s)

@[simp] lemma trackPeak_peak (s : LedgerState) :
    (trackPeak s).peakEquityLamports = max s.peakEquityLamports (equityLamports s) := by
  unfold trackPeak
  split_ifs with h
  · exact (max_eq_right h.le).symm
  · exact (max_eq_left (not_lt.mp h)).symm

lemma onFill_tracked (s : LedgerState) (p : FillRecorded) :
    (onFill s p).peakEquityLamports = max s.peakEquityLamports (equityLamports (onFill s p)) := by
  unfold onFill
  rw [trackPeak_peak, trackPeak_equity]
  refine congrArg (max · _) ?_
  rcases s.positions.get p.mint with - | v
  · rfl
  · dsimp only
    split_ifs <;> rfl

/-- No row pays for a refusal what it did not cost. -/
def Payload.Charges (p : Payload) : Prop := ∀ q, p = .orderRejected q → 0 ≤ q.feesLamports

/-- **One row.** The peak is raised to the equity after the row, and to nothing else. -/
theorem reduce_peak {e : Event} (hs : equityLamports s ≤ s.peakEquityLamports)
    (he : e.payload.Charges) :
    (reduce s e).peakEquityLamports =
      max s.peakEquityLamports (equityLamports (reduce s e)) := by
  have hstill : (handle s e.ts e.payload).peakEquityLamports = s.peakEquityLamports →
      (handle s e.ts e.payload).positions = s.positions →
      (handle s e.ts e.payload).cashLamports ≤ s.cashLamports →
      (reduce s e).peakEquityLamports = max s.peakEquityLamports (equityLamports (reduce s e)) := by
    intro hpeak hpos hcash
    have hle : equityLamports (reduce s e) ≤ equityLamports s := by
      rw [equityLamports, equityLamports, reduce_cash, reduce_positions, hpos]
      exact Int.add_le_add_right hcash _
    rw [max_eq_left (hle.trans hs)]
    exact hpeak
  have htracked : (handle s e.ts e.payload).peakEquityLamports =
      max s.peakEquityLamports (equityLamports (handle s e.ts e.payload)) →
      (reduce s e).peakEquityLamports = max s.peakEquityLamports (equityLamports (reduce s e)) :=
    id
  cases hp : e.payload with
  | positionOpened p =>
    rw [hp] at hstill htracked
    by_cases hm : p.mint = []
    · exact hstill (by simp [handle, onPositionOpened, hm]) (by simp [handle, onPositionOpened, hm])
        (by simp [handle])
    · refine htracked ?_
      simp only [handle, onPositionOpened, if_neg hm, trackPeak_peak, trackPeak_equity]
  | positionClosed p =>
    rw [hp] at htracked
    refine htracked ?_
    simp only [handle, onPositionClosed, trackPeak_peak, trackPeak_equity]
  | fillRecorded p =>
    rw [hp] at htracked
    exact htracked (onFill_tracked s p)
  | markToMarket p =>
    rw [hp] at htracked
    refine htracked ?_
    simp only [handle, onMtm, trackPeak_peak, trackPeak_equity]
  | orderRejected p =>
    have hfee := he p hp
    rw [hp] at hstill
    refine hstill rfl rfl ?_
    show s.cashLamports - p.feesLamports ≤ s.cashLamports
    omega
  | _ =>
    rw [hp] at hstill
    exact hstill rfl rfl le_rfl

lemma reduce_honest {e : Event} (hs : equityLamports s ≤ s.peakEquityLamports)
    (he : e.payload.Charges) :
    equityLamports (reduce s e) ≤ (reduce s e).peakEquityLamports ∧
      s.peakEquityLamports ≤ (reduce s e).peakEquityLamports := by
  rw [reduce_peak hs he]
  exact ⟨le_max_right _ _, le_max_left _ _⟩

/-- **A run of rows.** -/
theorem replay_honest {es : List Event} (hs : equityLamports s ≤ s.peakEquityLamports)
    (hes : ∀ e ∈ es, e.payload.Charges) :
    equityLamports (replay s es) ≤ (replay s es).peakEquityLamports ∧
      s.peakEquityLamports ≤ (replay s es).peakEquityLamports := by
  induction es generalizing s with
  | nil => exact ⟨hs, le_rfl⟩
  | cons e es ih =>
    obtain ⟨hbelow, hup⟩ := reduce_honest hs (hes e List.mem_cons_self)
    obtain ⟨hend, hrest⟩ := ih hbelow fun x hx => hes x (List.mem_cons_of_mem _ hx)
    exact ⟨hend, hup.trans hrest⟩

end Rows

/-! ### One batch -/

section Batch

variable {s : LedgerState}

lemma BatchOk.charges {P : Dict Mint PositionView} {ps : List Payload} (h : BatchOk P ps) :
    ∀ p ∈ ps, p.Charges := by
  intro p hp q hq
  subst hq
  cases h with
  | aside p ha =>
    rw [← List.mem_singleton.mp hp] at ha
    simp [Payload.isTrade] at ha
  | rejected p hfee =>
    cases List.mem_singleton.mp hp
    exact hfee
  | closed f v c rest _ _ _ _ _ _ ha =>
    have hrest : Payload.orderRejected q ∈ rest := by simpa using hp
    have := ha _ hrest
    simp [Payload.isTrade] at this
  | _ => simp at hp

lemma equity_aside {e : Event} (h : e.payload.isTrade = false) :
    equityLamports (reduce s e) = equityLamports s := by
  obtain ⟨hpos, hcash⟩ := handle_aside s e.ts h
  exact equity_congr hcash hpos

/-- Two rows whose first leaves the equity below the peak or below the end. -/
lemma peak_two {e₁ e₂ : Event} (hs : equityLamports s ≤ s.peakEquityLamports)
    (h₁ : e₁.payload.Charges) (h₂ : e₂.payload.Charges)
    (hmid : equityLamports (reduce s e₁) ≤
      max s.peakEquityLamports (equityLamports (reduce (reduce s e₁) e₂))) :
    (replay s [e₁, e₂]).peakEquityLamports =
      max s.peakEquityLamports (equityLamports (replay s [e₁, e₂])) := by
  rw [replay_cons, replay_cons, replay_nil, reduce_peak (reduce_honest hs h₁).1 h₂,
    reduce_peak hs h₁]
  rcases le_total (equityLamports (reduce s e₁)) s.peakEquityLamports with hle | hle
  · rw [max_eq_left hle]
  · rw [max_eq_right hle]
    rcases le_max_iff.mp hmid with hold | hnew
    · rw [le_antisymm hold hle]
    · rw [max_eq_right hnew, max_eq_right (hle.trans hnew)]

lemma peak_asides {es : List Event} (hs : equityLamports s ≤ s.peakEquityLamports)
    (h : ∀ e ∈ es, e.payload.isTrade = false) :
    (replay s es).peakEquityLamports = s.peakEquityLamports ∧
      equityLamports (replay s es) = equityLamports s := by
  induction es generalizing s with
  | nil => exact ⟨rfl, rfl⟩
  | cons e es ih =>
    have he := h e List.mem_cons_self
    have heq : equityLamports (reduce s e) = equityLamports s := equity_aside he
    have hch : e.payload.Charges := fun q hq => by simp [hq, Payload.isTrade] at he
    have hpeak : (reduce s e).peakEquityLamports = s.peakEquityLamports := by
      rw [reduce_peak hs hch, heq, max_eq_left hs]
    obtain ⟨hp, hq⟩ := ih (s := reduce s e) (by rw [heq, hpeak]; exact hs)
      fun x hx => h x (List.mem_cons_of_mem _ hx)
    exact ⟨hp.trans hpeak, hq.trans heq⟩

/-- A fill that opens a position only pays, until the opening row. -/
lemma equity_opening {e : Event} {f : FillRecorded} (h : e.payload = .fillRecorded f)
    (hn : s.positions.get f.mint = none) (hc : f.cashDeltaLamports ≤ 0) :
    equityLamports (reduce s e) ≤ equityLamports s := by
  rw [equityLamports, equityLamports, reduce_cash, reduce_positions, h, handle, onFill_cash,
    onFill_positions_none s hn]
  omega

/-- A fill that empties a position has its value already gone: the closing row moves nothing. -/
lemma equity_closing {e₁ e₂ : Event} {f : FillRecorded} {v : PositionView} {c : PositionClosed}
    (h₁ : e₁.payload = .fillRecorded f) (h₂ : e₂.payload = .positionClosed c)
    (hs : f.side = .sell) (hv : s.positions.get f.mint = some v) (hu : 0 < f.filledUnits)
    (hl : f.filledUnits = v.tokenUnits) (hc : c.mint = f.mint) :
    equityLamports (reduce (reduce s e₁) e₂) = equityLamports (reduce s e₁) := by
  have hh : 0 < v.tokenUnits := hl ▸ hu
  have hg : (reduce s e₁).positions.get f.mint = some (sellFrom v f) := by
    rw [reduce_positions, h₁, handle, onFill_positions_sell s hv hs hh hu, Dict.get_set_self]
  have hun : (sellFrom v f).tokenUnits = 0 := by simp [sellFrom, hl]
  have hcash : (reduce (reduce s e₁) e₂).cashLamports = (reduce s e₁).cashLamports := by
    rw [reduce_cash, h₂, handle, onPositionClosed_cash]
  have hpos : (reduce (reduce s e₁) e₂).positions = (reduce s e₁).positions.erase f.mint := by
    rw [reduce_positions, h₂, handle, onPositionClosed_positions, hc]
  rw [equityLamports, equityLamports, hcash, hpos, Dict.total_erase _ hg]
  simp [hun]

/-- **One batch.** After it the peak has been raised to the equity at its end alone. -/
theorem BatchOk.peak {es : List Event} (hs : equityLamports s ≤ s.peakEquityLamports)
    (h : BatchOk s.positions (es.map (·.payload))) :
    (replay s es).peakEquityLamports =
      max s.peakEquityLamports (equityLamports (replay s es)) := by
  have hch : ∀ e ∈ es, e.payload.Charges := fun e he => h.charges _ (List.mem_map_of_mem he)
  have hone : ∀ e, es = [e] → (replay s es).peakEquityLamports =
      max s.peakEquityLamports (equityLamports (replay s es)) := by
    rintro e rfl
    exact reduce_peak hs (hch e List.mem_cons_self)
  generalize hp : es.map (·.payload) = ps at h
  cases h with
  | aside p ha =>
    obtain ⟨e, rfl, -⟩ := List.map_eq_singleton_iff.mp hp
    exact hone e rfl
  | rejected p =>
    obtain ⟨e, rfl, -⟩ := List.map_eq_singleton_iff.mp hp
    exact hone e rfl
  | placed p =>
    obtain ⟨e, rfl, -⟩ := List.map_eq_singleton_iff.mp hp
    exact hone e rfl
  | marked p =>
    obtain ⟨e, rfl, -⟩ := List.map_eq_singleton_iff.mp hp
    exact hone e rfl
  | added f v =>
    obtain ⟨e, rfl, -⟩ := List.map_eq_singleton_iff.mp hp
    exact hone e rfl
  | reduced f v =>
    obtain ⟨e, rfl, -⟩ := List.map_eq_singleton_iff.mp hp
    exact hone e rfl
  | consumed a p =>
    obtain ⟨e₁, es, rfl, he₁, hes⟩ := List.map_eq_cons_iff.mp hp
    obtain ⟨e₂, rfl, he₂⟩ := List.map_eq_singleton_iff.mp hes
    refine peak_two hs (hch e₁ (by simp)) (hch e₂ (by simp)) (le_max_of_le_left ?_)
    rw [equity_aside (by rw [he₁]; rfl)]
    exact hs
  | opened f o hb hm hn hu hc =>
    obtain ⟨e₁, es, rfl, he₁, hes⟩ := List.map_eq_cons_iff.mp hp
    obtain ⟨e₂, rfl, he₂⟩ := List.map_eq_singleton_iff.mp hes
    exact peak_two hs (hch e₁ (by simp)) (hch e₂ (by simp))
      (le_max_of_le_left ((equity_opening he₁ hn hc).trans hs))
  | closed f v c rest hsell hv hu hl hc _ ha =>
    obtain ⟨e₁, es, rfl, he₁, hes⟩ := List.map_eq_cons_iff.mp hp
    obtain ⟨e₂, rs, rfl, he₂, hrs⟩ := List.map_eq_cons_iff.mp hes
    have htwo := peak_two hs (hch e₁ (by simp)) (hch e₂ (by simp))
      (le_max_of_le_right (equity_closing he₁ he₂ hsell hv hu hl hc).ge)
    have hboth : ∀ e ∈ [e₁, e₂], e.payload.Charges := fun e he => hch e (by
      rcases List.mem_cons.mp he with rfl | he
      · simp
      · simp [List.mem_singleton.mp he])
    have hrest : rs.map (·.payload) = rest := hrs
    have hsplit : replay s (e₁ :: e₂ :: rs) = replay (replay s [e₁, e₂]) rs := rfl
    obtain ⟨hpeak, hequity⟩ := peak_asides (replay_honest hs hboth).1 fun e he =>
      ha _ (hrest ▸ List.mem_map_of_mem he)
    rw [hsplit, hpeak, hequity, htwo]

end Batch

/-! ### Whole ledgers -/

/-- The greatest of a start and a list. -/
def highWater (start : ℤ) (equities : List ℤ) : ℤ := equities.foldl max start

/-- The equity at the start and at the end of each batch. -/
def batchEquities (s : LedgerState) (bs : List (List Event)) : List ℤ :=
  bs.inits.map fun cs => equityLamports (replay s cs.flatten)

lemma batchEquities_snoc (s : LedgerState) (bs : List (List Event)) (b : List Event) :
    batchEquities s (bs ++ [b]) =
      batchEquities s bs ++ [equityLamports (replay s (bs ++ [b]).flatten)] := by
  rw [batchEquities, List.inits_append, List.map_append]
  simp [batchEquities]

lemma initial_honest (e₀ day : ℤ) :
    equityLamports (initialState e₀ day) = e₀ ∧ (initialState e₀ day).peakEquityLamports = e₀ := by
  simp [equityLamports, initialState]

section Ledger

variable {st : LedgerStore}

lemma LedgerStore.Legal.charges (h : st.Legal) : ∀ e ∈ st.read, e.payload.Charges := by
  intro e he
  obtain ⟨b, hb, heb⟩ := List.mem_flatten.mp he
  obtain ⟨bs, cs, hs⟩ := List.append_of_mem hb
  have hp : bs ++ [b] <+: st.txns := ⟨cs, by simp [hs]⟩
  exact (h bs b hp).charges _ (List.mem_map_of_mem heb)

/-- The peak after some batches of a legal ledger. -/
lemma LedgerStore.Legal.peak (h : st.Legal) (e₀ day : ℤ) {bs : List (List Event)}
    (hp : bs <+: st.txns) :
    (replay (initialState e₀ day) bs.flatten).peakEquityLamports =
      highWater e₀ (batchEquities (initialState e₀ day) bs) := by
  obtain ⟨hequity, hpeak⟩ := initial_honest e₀ day
  induction bs using List.reverseRecOn with
  | nil => simp [highWater, batchEquities, hequity, hpeak]
  | append_singleton bs b ih =>
    obtain ⟨hbs, hb⟩ := h.prefix_step hp
    have hcharges : ∀ e ∈ bs.flatten, e.payload.Charges := by
      obtain ⟨cs, hcs⟩ := hbs
      intro e he
      refine h.charges e ?_
      rw [LedgerStore.read, ← hcs, List.flatten_append]
      exact List.mem_append_left _ he
    have hhonest := (replay_honest (s := initialState e₀ day) (by rw [hequity, hpeak]) hcharges).1
    rw [← replay_initial_positions e₀ day bs.flatten] at hb
    rw [batchEquities_snoc, highWater, List.foldl_append, List.foldl_cons, List.foldl_nil]
    rw [List.flatten_append, List.flatten_singleton, replay_append, BatchOk.peak hhonest hb, ih hbs]
    rfl

end Ledger

namespace Sys

/-- **The peak is honest.** In every run the peak is never below the equity, whatever rows are
folded, and never falls; and after every batch it is the maximum of the initial equity and of the
equities at the ends of the batches so far. -/
theorem peak_honest (cfg : DeskConfig) (now e₀ day : ℤ) (killswitch : KillSwitch)
    (as : List Action) :
    let st := (Runs.after (step cfg) (start now e₀ killswitch) as).store
    let folded := replay (initialState e₀ day)
    (∀ es, es <+: st.read →
      equityLamports (folded es) ≤ (folded es).peakEquityLamports ∧
      ∀ fs, fs <+: es → (folded fs).peakEquityLamports ≤ (folded es).peakEquityLamports) ∧
    ∀ bs, bs <+: st.txns → (folded bs.flatten).peakEquityLamports =
      highWater e₀ (batchEquities (initialState e₀ day) bs) := by
  intro st folded
  have hl : st.Legal := (books_after cfg now e₀ killswitch as).legal
  obtain ⟨hequity, hpeak⟩ := initial_honest e₀ day
  have hstart :
      equityLamports (initialState e₀ day) ≤ (initialState e₀ day).peakEquityLamports := by
    rw [hequity, hpeak]
  refine ⟨fun es hes => ?_, fun bs hbs => hl.peak e₀ day hbs⟩
  have hcharges : ∀ e ∈ es, e.payload.Charges := fun e he => hl.charges e (hes.subset he)
  refine ⟨(replay_honest hstart hcharges).1, fun fs hfs => ?_⟩
  obtain ⟨gs, rfl⟩ := hfs
  have hfront := (replay_honest hstart fun e he => hcharges e (List.mem_append_left _ he)).1
  have hback := replay_honest hfront fun e he => hcharges e (List.mem_append_right _ he)
  show (replay _ fs).peakEquityLamports ≤ (replay _ (fs ++ gs)).peakEquityLamports
  rw [replay_append]
  exact hback.2

theorem peak_honest_sample :
    (replay (initialState 10000000000 0)
        (sampleAfter sampleTrades).store.txns.flatten).peakEquityLamports =
      highWater 10000000000
        (batchEquities (initialState 10000000000 0) (sampleAfter sampleTrades).store.txns) :=
  (peak_honest sampleConfig 0 10000000000 0 {} sampleTrades).2 _ (List.prefix_refl _)

end Sys

end PumpGrok
