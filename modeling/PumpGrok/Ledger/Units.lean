import PumpGrok.Ledger.Batches

/-!
Units held, bought and sold. A mint's life on the ledger is what follows its last closing row;
its net units over that life are the units the fold holds, and the row that closes it is
appended with the fill that sells the last of them.
-/

namespace PumpGrok

/-- The units of a mint the positions hold. -/
def unitsHeld (P : Dict Mint PositionView) (m : Mint) : ℤ :=
  ((P.get m).map (·.tokenUnits)).getD 0

/-- The units a row adds to a mint: bought, or sold with a minus. -/
def unitsOf (m : Mint) : Payload → ℤ
  | .fillRecorded f =>
    if f.mint = m then if f.side = .buy then f.filledUnits else -f.filledUnits else 0
  | _ => 0

def netUnits (m : Mint) (ps : List Payload) : ℤ := (ps.map (unitsOf m)).sum

def closes (m : Mint) : Payload → Bool
  | .positionClosed c => c.mint = m
  | _ => false

/-- The rows since a mint was last closed. -/
def lifeOf (m : Mint) (ps : List Payload) : List Payload :=
  ps.foldl (fun life p => if closes m p then [] else life ++ [p]) []

variable {P P' : Dict Mint PositionView} {ps qs : List Payload}

lemma netUnits_append (m : Mint) (ps qs : List Payload) :
    netUnits m (ps ++ qs) = netUnits m ps + netUnits m qs := by
  simp [netUnits]

lemma unitsHeld_nonneg (h : AllHeld P) (m : Mint) : 0 ≤ unitsHeld P m := by
  unfold unitsHeld
  rcases hv : P.get m with - | v
  · simp
  · have := h m v hv
    simpa using this.le

lemma unitsHeld_some {m : Mint} {v : PositionView} (h : P.get m = some v) :
    unitsHeld P m = v.tokenUnits := by
  simp [unitsHeld, h]

lemma unitsHeld_none {m : Mint} (h : P.get m = none) : unitsHeld P m = 0 := by
  simp [unitsHeld, h]

lemma unitsHeld_set (k m : Mint) (v : PositionView) :
    unitsHeld (P.set k v) m = if m = k then v.tokenUnits else unitsHeld P m := by
  unfold unitsHeld
  rw [Dict.get_set]
  split_ifs <;> rfl

lemma unitsHeld_erase (k m : Mint) :
    unitsHeld (P.erase k) m = if m = k then 0 else unitsHeld P m := by
  unfold unitsHeld
  rw [Dict.get_erase]
  split_ifs <;> rfl

lemma unitsHeld_congr (h : SameHoldings P P') (m : Mint) : unitsHeld P' m = unitsHeld P m := by
  have hm := congrArg (Option.map Prod.fst) (h m)
  simp only [Option.map_map] at hm
  exact congrArg (Option.getD · 0) hm

lemma closes_aside {p : Payload} (h : p.isTrade = false) (m : Mint) : closes m p = false := by
  cases p <;> first | rfl | simp [Payload.isTrade] at h

lemma unitsOf_aside {p : Payload} (h : p.isTrade = false) (m : Mint) : unitsOf m p = 0 := by
  cases p <;> first | rfl | simp [Payload.isTrade] at h

lemma netUnits_asides (h : ∀ p ∈ ps, p.isTrade = false) (m : Mint) : netUnits m ps = 0 := by
  unfold netUnits
  refine List.sum_eq_zero fun n hn => ?_
  obtain ⟨p, hp, rfl⟩ := List.mem_map.mp hn
  exact unitsOf_aside (h p hp) m

/-! ### Lives -/

lemma lifeOf_append_of_open {m : Mint} (ps : List Payload) (h : ∀ p ∈ qs, closes m p = false) :
    lifeOf m (ps ++ qs) = lifeOf m ps ++ qs := by
  unfold lifeOf
  rw [List.foldl_append]
  generalize ps.foldl _ [] = life
  induction qs generalizing life with
  | nil => simp
  | cons q qs ih =>
    rw [List.foldl_cons, h q (by simp)]
    simp only [Bool.false_eq_true, if_false]
    rw [ih fun p hp => h p (List.mem_cons_of_mem _ hp), List.append_assoc]
    rfl

lemma lifeOf_append_close {m : Mint} (ps : List Payload) {p : Payload} (hp : closes m p = true)
    (h : ∀ q ∈ qs, closes m q = false) : lifeOf m (ps ++ [p] ++ qs) = qs := by
  rw [lifeOf_append_of_open _ h]
  unfold lifeOf
  rw [List.foldl_append, List.foldl_cons, List.foldl_nil, if_pos hp, List.nil_append]

/-! ### One batch -/

/-- The units after a batch are those before and what its rows add. -/
lemma PositionsAfter.units (h : PositionsAfter P ps P') (m : Mint) :
    unitsHeld P' m = unitsHeld P m + netUnits m ps := by
  cases h with
  | same h hf hc =>
    have : netUnits m ps = 0 := by
      refine List.sum_eq_zero fun n hn => ?_
      obtain ⟨p, hp, rfl⟩ := List.mem_map.mp hn
      cases p with
      | fillRecorded f => exact absurd rfl (hf _ hp f)
      | _ => rfl
    rw [unitsHeld_congr h, this, add_zero]
  | opened f o hp hb hn hu ho hou =>
    subst hp
    rw [unitsHeld_set]
    simp only [netUnits, List.map_cons, List.map_nil, unitsOf, hb, if_true, List.sum_cons,
      List.sum_nil, openedView, hou, @eq_comm _ f.mint m]
    split_ifs with hm
    · rw [hm, unitsHeld_none hn]
      ring
    · ring
  | added f v hp hb hv hu =>
    subst hp
    rw [unitsHeld_set]
    simp only [netUnits, List.map_cons, List.map_nil, unitsOf, hb, if_true, List.sum_cons,
      List.sum_nil, buyInto, @eq_comm _ f.mint m]
    split_ifs with hm
    · rw [hm, unitsHeld_some hv]
      ring
    · ring
  | reduced f v hp hs hv hu hl =>
    subst hp
    rw [unitsHeld_set]
    simp only [netUnits, List.map_cons, List.map_nil, unitsOf, hs, reduceCtorEq, if_false,
      List.sum_cons, List.sum_nil, sellFrom, @eq_comm _ f.mint m]
    split_ifs with hm
    · rw [hm, unitsHeld_some hv]
      ring
    · ring
  | closed f v c rest hp hs hv hu hl hc ha =>
    subst hp
    rw [netUnits_append, netUnits_asides ha, unitsHeld_erase, unitsHeld_set]
    simp only [netUnits, List.map_cons, List.map_nil, unitsOf, hs, reduceCtorEq, if_false,
      List.sum_cons, List.sum_nil, @eq_comm _ f.mint m]
    split_ifs with hm
    · rw [hm, unitsHeld_some hv, hl]
      ring
    · ring

/-- A batch closes a mint once when it takes its last units, and never else. -/
lemma PositionsAfter.closings (h : PositionsAfter P ps P') (hp : AllHeld P) (m : Mint) :
    ps.countP (closes m) = if 0 < unitsHeld P m ∧ unitsHeld P' m = 0 then 1 else 0 := by
  have hset : ∀ (k : Mint) (w : PositionView), 0 < w.tokenUnits →
      ¬ (0 < unitsHeld P m ∧ unitsHeld (P.set k w) m = 0) := by
    rintro k w hw ⟨h₁, h₂⟩
    rw [unitsHeld_set] at h₂
    split_ifs at h₂ <;> omega
  cases h with
  | same h hf hc =>
    rw [if_neg (by rw [unitsHeld_congr h]; omega), List.countP_eq_zero]
    intro p hmem
    cases p with
    | positionClosed c => exact absurd rfl (hc _ hmem c)
    | _ => simp [closes]
  | opened f o hps hb hn hu ho hou =>
    subst hps
    rw [if_neg (hset _ _ (by simpa [openedView, hou] using hu))]
    rfl
  | added f v hps hb hv hu =>
    subst hps
    have := hp _ v hv
    rw [if_neg (hset _ _ (by simp only [buyInto]; omega))]
    rfl
  | reduced f v hps hs hv hu hl =>
    subst hps
    rw [if_neg (hset _ _ (by simp only [sellFrom]; omega))]
    rfl
  | closed f v c rest hps hs hv hu hl hc ha =>
    subst hps
    have hrest : rest.countP (closes m) = 0 := by
      rw [List.countP_eq_zero]
      intro p hmem
      simp [closes_aside (ha p hmem)]
    rw [List.countP_append, hrest, unitsHeld_erase, unitsHeld_set]
    simp only [List.countP_cons, List.countP_nil, closes, hc, @eq_comm _ f.mint m]
    by_cases hm : m = f.mint
    · have := hp _ v hv
      simp [hm, unitsHeld_some hv, this]
    · simp only [hm, decide_false, Bool.false_eq_true, if_false]
      rw [if_neg (by omega)]

/-- What a mint's life adds up to, after one more batch. -/
lemma PositionsAfter.life (h : PositionsAfter P ps P') (m : Mint) (past : List Payload)
    (hl : unitsHeld P m = netUnits m (lifeOf m past)) :
    unitsHeld P' m = netUnits m (lifeOf m (past ++ ps)) := by
  have hopen : (∀ p ∈ ps, closes m p = false) →
      unitsHeld P' m = netUnits m (lifeOf m (past ++ ps)) := by
    intro ho
    rw [lifeOf_append_of_open past ho, netUnits_append, ← hl, h.units m]
  cases h with
  | same h hf hc =>
    refine hopen fun p hmem => ?_
    cases p with
    | positionClosed c => exact absurd rfl (hc _ hmem c)
    | _ => rfl
  | opened f o hps => exact hopen (by simp [hps, closes])
  | added f v hps => exact hopen (by simp [hps, closes])
  | reduced f v hps => exact hopen (by simp [hps, closes])
  | closed f v c rest hps hs hv hu hlast hc ha =>
    subst hps
    have hr : ∀ q ∈ rest, closes m q = false := fun q hq => closes_aside (ha q hq) m
    by_cases hm : m = f.mint
    · have hlife : lifeOf m (past ++ ([.fillRecorded f, .positionClosed c] ++ rest)) = rest := by
        have := lifeOf_append_close (past ++ [.fillRecorded f]) (p := .positionClosed c)
          (by simp [closes, hc, hm]) hr
        simpa using this
      rw [hlife, netUnits_asides ha, unitsHeld_erase, if_pos hm]
    · refine hopen fun p hmem => ?_
      have hc' : closes m (.positionClosed c) = false := by
        simp [closes, hc, Ne.symm hm]
      rcases List.mem_append.mp hmem with hf | hf
      · rcases List.mem_cons.mp hf with rfl | hf
        · rfl
        · rw [List.mem_singleton.mp hf, hc']
      · exact hr p hf

end PumpGrok
