import PumpGrok.Lib.DictMap
import PumpGrok.Desk.StepBatches

/-!
The limits on what is held. The confirming check counts the open positions on the rows the fill
is appended to, so they hold after every transaction however calls overlap: no more positions
than allowed, none of them bought twice, and one to a known creator.
-/

namespace PumpGrok

/-! ### Counting what is held -/

/-- How many mints are held. -/
def heldCount (P : Dict Mint PositionView) : ℕ := P.values.countP fun v => 0 < v.tokenUnits

def heldOne (v : PositionView) : ℤ := if 0 < v.tokenUnits then 1 else 0

lemma openCount_eq (s : LedgerState) : openCount s = heldCount s.positions := rfl

lemma heldCount_eq_total (P : Dict Mint PositionView) : (heldCount P : ℤ) = P.total heldOne := by
  unfold heldCount Dict.values Dict.total
  induction P.entries with
  | nil => rfl
  | cons x r ih =>
    rw [List.map_cons, List.countP_cons, List.map_cons, List.sum_cons, ← ih, heldOne]
    split_ifs with h₁ h₂ h₂
    · omega
    · exact absurd (of_decide_eq_true h₁) h₂
    · exact absurd (decide_eq_true h₂) h₁
    · omega

section Count

variable {P P' : Dict Mint PositionView} {m : Mint} {u v : PositionView}

lemma SameHoldings.heldCount_eq (h : SameHoldings P P') : heldCount P' = heldCount P := by
  have htotal : P'.total heldOne = P.total heldOne := by
    refine Dict.total_congr fun k => ?_
    have hk := congrArg (Option.map fun x : ℤ × ℤ × Creator => if 0 < x.1 then (1 : ℤ) else 0) (h k)
    rw [Option.map_map, Option.map_map] at hk
    exact hk
  have h₁ := heldCount_eq_total P
  have h₂ := heldCount_eq_total P'
  omega

lemma heldCount_set_new (h : P.get m = none) (hv : 0 < v.tokenUnits) :
    heldCount (P.set m v) = heldCount P + 1 := by
  have h₁ := heldCount_eq_total P
  have h₂ := heldCount_eq_total (P.set m v)
  rw [Dict.total_set_new heldOne v h, show heldOne v = 1 from if_pos hv] at h₂
  omega

lemma heldCount_set_old (h : P.get m = some u) (hu : 0 < u.tokenUnits) :
    heldCount (P.set m v) ≤ heldCount P := by
  have h₁ := heldCount_eq_total P
  have h₂ := heldCount_eq_total (P.set m v)
  have hv : heldOne v ≤ 1 := by
    unfold heldOne
    split_ifs <;> omega
  rw [Dict.total_set_old heldOne v h, show heldOne u = 1 from if_pos hu] at h₂
  omega

lemma heldCount_erase_le (P : Dict Mint PositionView) (m : Mint) :
    heldCount (P.erase m) ≤ heldCount P := by
  rcases hm : P.get m with - | u
  · rw [Dict.erase_of_get_none hm]
  · have h₁ := heldCount_eq_total P
    have h₂ := heldCount_eq_total (P.erase m)
    have hu : 0 ≤ heldOne u := by
      unfold heldOne
      split_ifs <;> omega
    rw [Dict.total_erase heldOne hm] at h₂
    omega

end Count

/-! ### The limits -/

/-- What is held is within the limits. -/
structure WithinLimits (cfg : DeskConfig) (P : Dict Mint PositionView) : Prop where
  few : heldCount P ≤ cfg.budget.maxOpenPositions
  apart : cfg.limits.onePositionPerCreator = true → ∀ m m' v v', P.get m = some v →
    P.get m' = some v' → v.creator = v'.creator → v.creator ≠ [] → m = m'

/-- There is room for a position of a mint by a creator. -/
structure Room (cfg : DeskConfig) (P : Dict Mint PositionView) (m : Mint) (creator : Creator) :
    Prop where
  new : P.get m = none
  few : heldCount P < cfg.budget.maxOpenPositions
  apart : cfg.limits.onePositionPerCreator = true → creator ≠ [] →
    ∀ k v, P.get k = some v → v.creator ≠ creator

/-- The rows hold no buy, or one that opens a position there is room for. -/
def Roomy (cfg : DeskConfig) (es : List Event) (ps : List Payload) : Prop :=
  (∀ p ∈ ps, p.isBuyFill = false) ∨
    ∃ f o, ps = [.fillRecorded f, .positionOpened o] ∧ Room cfg (positionsOf es) f.mint o.creator

section Kept

variable {cfg : DeskConfig} {P P' : Dict Mint PositionView}

lemma withinLimits_empty (cfg : DeskConfig) : WithinLimits cfg ∅ where
  few := Nat.zero_le _
  apart := by simp

/-- Positions that are fewer, each of a creator it had before. -/
lemma WithinLimits.shrink (h : WithinLimits cfg P) (hn : heldCount P' ≤ heldCount P)
    (hc : ∀ m v, P'.get m = some v → ∃ u, P.get m = some u ∧ u.creator = v.creator) :
    WithinLimits cfg P' where
  few := hn.trans h.few
  apart hone m m' v v' hv hv' heq hne := by
    obtain ⟨u, hu, huv⟩ := hc m v hv
    obtain ⟨u', hu', huv'⟩ := hc m' v' hv'
    exact h.apart hone m m' u u' hu hu' (by rw [huv, huv', heq]) (by rwa [huv])

/-- A position is opened where there is room for it. -/
lemma WithinLimits.opened (h : WithinLimits cfg P) {m : Mint} {v : PositionView}
    (hr : Room cfg P m v.creator) (hv : 0 < v.tokenUnits) : WithinLimits cfg (P.set m v) where
  few := by
    rw [heldCount_set_new hr.new hv]
    exact hr.few
  apart hone k k' u u' hu hu' heq hne := by
    rw [Dict.get_set] at hu hu'
    split_ifs at hu hu' with hk hk' hk'
    · rw [hk, hk']
    · obtain rfl := Option.some.inj hu
      exact absurd heq.symm (hr.apart hone hne k' u' hu')
    · obtain rfl := Option.some.inj hu'
      exact absurd heq (hr.apart hone (heq ▸ hne) k u hu)
    · exact h.apart hone k k' u u' hu hu' heq hne

/-- **A batch** that is roomy where it is appended keeps the limits. -/
theorem PositionsAfter.withinLimits {es : List Event} {ps : List Payload} (hP : P = positionsOf es)
    (h : PositionsAfter P ps P') (hh : AllHeld P) (hr : Roomy cfg es ps) (hl : WithinLimits cfg P) :
    WithinLimits cfg P' := by
  have hset : ∀ (m : Mint) (u v : PositionView), P.get m = some u → v.creator = u.creator →
      ∀ k w, (P.set m v).get k = some w → ∃ u, P.get k = some u ∧ u.creator = w.creator := by
    intro m u v hu hc k w hw
    rw [Dict.get_set] at hw
    split_ifs at hw with hk
    · obtain rfl := Option.some.inj hw
      exact ⟨u, hk ▸ hu, hc.symm⟩
    · exact ⟨w, hw, rfl⟩
  cases h with
  | same h =>
    refine hl.shrink h.heldCount_eq.le fun m v hv => ?_
    obtain ⟨u, hu, huv⟩ := h.get_some hv
    exact ⟨u, hu, congrArg (fun x : ℤ × ℤ × Creator => x.2.2) huv⟩
  | opened f o hps hb hn hu ho hou =>
    rcases hr with hr | ⟨f', o', hps', hroom⟩
    · have hbuys := hr (.fillRecorded f) (by rw [hps]; simp)
      simp [Payload.isBuyFill, hb] at hbuys
    · rw [hps] at hps'
      simp only [List.cons.injEq, Payload.fillRecorded.injEq, Payload.positionOpened.injEq,
        and_true] at hps'
      obtain ⟨rfl, rfl⟩ := hps'
      rw [← hP] at hroom
      exact hl.opened hroom (by rw [openedView, hou]; exact hu)
  | added f v hps hb hv hu =>
    rcases hr with hr | ⟨f', o', hps', -⟩
    · have hbuys := hr (.fillRecorded f) (by rw [hps]; simp)
      simp [Payload.isBuyFill, hb] at hbuys
    · rw [hps] at hps'
      simp at hps'
  | reduced f v hps hs hv hu hlt =>
    exact hl.shrink (heldCount_set_old hv (hh _ v hv)) (hset _ v _ hv rfl)
  | closed f v c rest hps hs hv hu heq hc ha =>
    refine hl.shrink ((heldCount_erase_le _ _).trans (heldCount_set_old hv (hh _ v hv))) ?_
    intro k w hw
    rw [Dict.get_erase] at hw
    split_ifs at hw with hk
    exact hset _ v (sellFrom v f) hv rfl k w hw

end Kept

/-! ### What the check of a buy has found -/

section Screened

variable {cfg : DeskConfig} {s : Sys} {st : LedgerStore} {rows : List Row}

lemma fold_positions (cfg : DeskConfig) (d : Desk) :
    (d.fold cfg).positions = positionsOf d.store.read := replay_initial_positions _ _ _

/-- **A step's buy** opens a position there is room for. -/
theorem StepBatch.roomy (hb : s.Books cfg) (h : StepBatch cfg s st rows) :
    Roomy cfg st.read (rows.map (·.payload)) := by
  rcases h.buys with h | ⟨i, c, p, quote, q, curve, out1, dec, d, hst, hi, hside, he, hp, rfl⟩
  · refine .inl fun p hp => ?_
    obtain ⟨r, hr, rfl⟩ := List.mem_map.mp hp
    exact h r hr
  · have hl : s.store.Legal := hb.legal
    have hsame : positionsOf st.read = positionsOf s.store.read := by
      rw [← hst]
      exact positions_engine ((evaluate_quietly cfg _).run he).store
    have hfold : ((keyedDesk s.world.desk).fold cfg).positions = positionsOf s.store.read :=
      fold_positions cfg _
    have hnone : (positionsOf s.store.read).get c.request.mint = none := by
      by_contra hne
      obtain ⟨v, hv⟩ := Option.ne_none_iff_exists'.mp hne
      have hopen := passed_alreadyOpen he hp hside
      rw [hfold, show (c.checkCall cfg .confirming).order.mint = c.request.mint from rfl,
        hv] at hopen
      simp [hl.allHeld _ v hv] at hopen
    have hunheld : heldPosition (d.fold cfg) c.request.mint = none := by
      rcases hv : heldPosition (d.fold cfg) c.request.mint with - | v
      · rfl
      · have hget := (held_get hv).1
        rw [hst, hsame, hnone] at hget
        cases hget
    refine .inr ⟨_, _, by unfold boughtRows buyFillRows; rw [hunheld]; rfl, ?_⟩
    rw [hsame]
    refine ⟨hnone, ?_, fun hone hcr k v hv heq => ?_⟩
    · have hfew := passed_maxOpen he hp hside
      rwa [openCount_eq, hfold] at hfew
    · have hcreator := passed_creator he hp hside hone hcr
      have hopen : creatorOpen ((keyedDesk s.world.desk).fold cfg) c.creator = true := by
        refine List.any_eq_true.mpr ⟨v, ?_, by simp [hl.allHeld k v hv, heq]⟩
        rw [hfold]
        exact (Dict.mem_values_iff _ v).mpr ⟨k, hv⟩
      rw [show (c.checkCall cfg .confirming).creator = c.creator from rfl, hopen] at hcreator
      cases hcreator

end Screened

/-- The limits of a whole ledger: after every transaction what is held is within them, and every
buy fill opens a position, in a transaction of its own, where there was room for it. -/
structure LedgerStore.Limited (cfg : DeskConfig) (st : LedgerStore) : Prop where
  within : ∀ bs, bs <+: st.txns → WithinLimits cfg (positionsOf bs.flatten)
  opens : ∀ bs b, bs ++ [b] <+: st.txns → ∀ e ∈ b, ∀ f, e.payload = .fillRecorded f →
    f.side = .buy → ∃ o, b.map (·.payload) = [.fillRecorded f, .positionOpened o] ∧
      Room cfg (positionsOf bs.flatten) f.mint o.creator

namespace Sys

/-- **The limits hold** in every run, however its calls overlap. -/
theorem within_limits (cfg : DeskConfig) (now e₀ : ℤ) (killswitch : KillSwitch)
    (as : List Action) :
    (Runs.after (step cfg) (start now e₀ killswitch) as).store.Limited cfg := by
  have heach := each_after cfg (fun _ hs _ _ h => h.roomy hs.books) now e₀ killswitch as
  have hlegal := (books_after cfg now e₀ killswitch as).legal
  refine ⟨fun bs hp => ?_, fun bs b hp e he f hf hb => ?_⟩
  · induction bs using List.reverseRecOn with
    | nil => exact withinLimits_empty cfg
    | append_singleton bs b ih =>
      have hbs := (List.prefix_append bs [b]).trans hp
      exact (hlegal.positionsAfter hp).withinLimits rfl (hlegal.allHeld_early hbs) (heach bs b hp)
        (ih hbs)
  · have hmem : Payload.fillRecorded f ∈ b.map (·.payload) := hf ▸ List.mem_map_of_mem he
    rcases heach bs b hp with hnone | ⟨f', o, hps, hroom⟩
    · have hbuys := hnone _ hmem
      simp [Payload.isBuyFill, hb] at hbuys
    · rw [hps] at hmem
      simp only [List.mem_cons, Payload.fillRecorded.injEq, List.not_mem_nil, or_false,
        reduceCtorEq] at hmem
      subst hmem
      exact ⟨o, hps, hroom⟩

end Sys

end PumpGrok
