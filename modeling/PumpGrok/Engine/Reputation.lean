import PumpGrok.Core.Types
import PumpGrok.Lib.Dict
import PumpGrok.Lib.Runs

/-!
Creator memory: the book of deployers the own trades are remembered under. A newcomer enters a full
book with a last-seen stamp of zero, the book is thinned, and only then is the newcomer's stamp set
and its record updated.
-/

namespace PumpGrok

/-- How many addresses to remember. Past that, the stalest is evicted. -/
def maxCreators : ℕ := 50000

/-- What is known about one address from the own trades. -/
structure CreatorRecord where
  creator : Text
  tokensSeen : ℕ := 0
  tokensBought : ℕ := 0
  closed : ℕ := 0
  rugs : ℕ := 0
  realizedPnlLamports : ℤ := 0
  worstLossPct : ℚ := 0
  lastSeen : ℚ := 0
deriving DecidableEq

namespace CreatorRecord

def isKnownBad (r : CreatorRecord) : Bool := 0 < r.rugs

/-- After one more launch. -/
def seen (r : CreatorRecord) : CreatorRecord := { r with tokensSeen := r.tokensSeen + 1 }

/-- After one more buy. -/
def bought (r : CreatorRecord) : CreatorRecord := { r with tokensBought := r.tokensBought + 1 }

/-- After one more close; a deep loss counts as a rug. -/
def closedAt (pnlLamports : ℤ) (returnPct rugLossPct : ℚ) (r : CreatorRecord) : CreatorRecord :=
  { r with
    closed := r.closed + 1
    realizedPnlLamports := r.realizedPnlLamports + pnlLamports
    worstLossPct := min r.worstLossPct returnPct
    rugs := if rugLossPct ≠ 0 ∧ rugLossPct ≤ -returnPct then r.rugs + 1 else r.rugs }

end CreatorRecord

/-- The addresses of the book, in insertion order. -/
abbrev ReputationBook := Dict Text CreatorRecord

namespace ReputationBook

/-- The order of eviction: clean before known bad, the stalest first. -/
def evictedBefore (x y : Text × CreatorRecord) : Bool :=
  if x.2.isKnownBad = y.2.isKnownBad then x.2.lastSeen ≤ y.2.lastSeen else !x.2.isKnownBad

/-- Delete along the order until the book fits. -/
def evictAlong (cap : ℕ) : ReputationBook → List (Text × CreatorRecord) → ReputationBook
  | b, [] => b
  | b, (k, _) :: rest => if b.size ≤ cap then b else evictAlong cap (b.erase k) rest

def evictIfCrowded (cap : ℕ) (b : ReputationBook) : ReputationBook :=
  if b.size ≤ cap then b else evictAlong cap b (b.entries.mergeSort evictedBefore)

/-- A write to the record object that was taken from under a key: the book sees it while it holds
the object. -/
def touch (b : ReputationBook) (creator : Text) (r : CreatorRecord) : ReputationBook :=
  if (b.get creator).isSome then b.set creator r else b

/-- The record of a creator, stamped, and the book with it; a newcomer is entered and the book
thinned before the stamp is set. -/
def record (cap : ℕ) (now : ℚ) (b : ReputationBook) (creator : Text) :
    CreatorRecord × ReputationBook :=
  match b.get creator with
  | some r => ({ r with lastSeen := now }, b.touch creator { r with lastSeen := now })
  | none =>
    let r : CreatorRecord := { creator }
    let b := evictIfCrowded cap (b.set creator r)
    ({ r with lastSeen := now }, b.touch creator { r with lastSeen := now })

/-- The shape of the recording operations: nothing for no creator, else an update of its record. -/
def recording (cap : ℕ) (now : ℚ) (b : ReputationBook) (creator : Option Text)
    (update : CreatorRecord → CreatorRecord) : ReputationBook :=
  match creator with
  | none | some [] => b
  | some c =>
    let (r, b) := b.record cap now c
    b.touch c (update r)

def observe (cap : ℕ) (now : ℚ) (b : ReputationBook) (creator : Option Text) : ReputationBook :=
  b.recording cap now creator CreatorRecord.seen

def recordOpen (cap : ℕ) (now : ℚ) (b : ReputationBook) (creator : Option Text) : ReputationBook :=
  b.recording cap now creator CreatorRecord.bought

def recordClose (cap : ℕ) (now : ℚ) (b : ReputationBook) (creator : Option Text) (pnlLamports : ℤ)
    (returnPct rugLossPct : ℚ) : ReputationBook :=
  b.recording cap now creator (CreatorRecord.closedAt pnlLamports returnPct rugLossPct)

/-- The addresses unheard from since the cutoff; rugs are never forgotten. -/
def staleKeys (b : ReputationBook) (cutoff : ℚ) : List Text :=
  (b.entries.filter fun x => x.2.lastSeen < cutoff && !x.2.isKnownBad).map Prod.fst

/-- Forget addresses unheard from for some days, and how many. -/
def forgetOlderThan (b : ReputationBook) (days now : ℚ) : ReputationBook × ℕ :=
  if days ≤ 0 then (b, 0)
  else
    let stale := b.staleKeys (now - days * 86400)
    (stale.foldl Dict.erase b, stale.length)

end ReputationBook

/-- What is done to a book, each with the reading of the clock. -/
inductive BookAction where
  | observe (now : ℚ) (creator : Option Text)
  | recordOpen (now : ℚ) (creator : Option Text)
  | recordClose (now : ℚ) (creator : Option Text) (pnlLamports : ℤ) (returnPct rugLossPct : ℚ)
  | forget (days now : ℚ)
  | evict

namespace BookAction

/-- The creator an action writes the record of. -/
def writes : BookAction → Option Text
  | observe _ (some (x :: c)) | recordOpen _ (some (x :: c))
  | recordClose _ (some (x :: c)) _ _ _ => some (x :: c)
  | _ => none

/-- The record an action writes over the one that was there. -/
def written (r : CreatorRecord) : BookAction → CreatorRecord
  | observe now _ => { r with lastSeen := now }.seen
  | recordOpen now _ => { r with lastSeen := now }.bought
  | recordClose now _ pnlLamports returnPct rugLossPct =>
    { r with lastSeen := now }.closedAt pnlLamports returnPct rugLossPct
  | forget _ _ | evict => r

end BookAction

namespace ReputationBook

def step (cap : ℕ) (b : ReputationBook) : BookAction → ReputationBook
  | .observe now creator => b.observe cap now creator
  | .recordOpen now creator => b.recordOpen cap now creator
  | .recordClose now creator pnlLamports returnPct rugLossPct =>
    b.recordClose cap now creator pnlLamports returnPct rugLossPct
  | .forget days now => (b.forgetOlderThan days now).1
  | .evict => b.evictIfCrowded cap

/-- **The book keeps what matters**: the record just written is there with its counts, no known-bad
creator is dropped while a clean record remains, and the book fits. -/
structure Keeps (cap : ℕ) (b : ReputationBook) (a : BookAction) : Prop where
  written : ∀ c, a.writes = some c →
    (step cap b a).get c = some (a.written ((b.get c).getD { creator := c }))
  bad : ∀ c r, b.get c = some r → r.isKnownBad = true → (step cap b a).get c = none →
    ∀ c' r', (step cap b a).get c' = some r' → r'.isKnownBad = true
  fits : (step cap b a).size ≤ cap

/-- A newcomer enters a full book only where a clean record was last seen at time zero or before:
that record is evicted in its place. -/
def HasRoom (cap : ℕ) (b : ReputationBook) (a : BookAction) : Prop :=
  ∀ c, a.writes = some c → b.get c = none → cap ≤ b.size →
    ∃ c' r, b.get c' = some r ∧ r.isKnownBad = false ∧ r.lastSeen ≤ 0

/-! ### Eviction -/

variable {cap : ℕ} {b : ReputationBook} {c : Text}

lemma evictedBefore_trans (x y z : Text × CreatorRecord) (hxy : evictedBefore x y = true)
    (hyz : evictedBefore y z = true) : evictedBefore x z = true := by
  unfold evictedBefore at *
  cases hx : x.2.isKnownBad <;> cases hy : y.2.isKnownBad <;> cases hz : z.2.isKnownBad <;>
    simp only [hx, hy, hz, if_true, decide_eq_true_eq, reduceCtorEq, if_false, Bool.not_false,
      Bool.not_true] at *
  all_goals exact hxy.trans hyz

lemma evictedBefore_total (x y : Text × CreatorRecord) :
    (evictedBefore x y || evictedBefore y x) = true := by
  unfold evictedBefore
  cases hx : x.2.isKnownBad <;> cases hy : y.2.isKnownBad <;>
    simp [le_total]

/-- What goes before a newcomer: clean records last seen at time zero or before. -/
lemma evictedBefore_new (x : Text × CreatorRecord) :
    evictedBefore x (c, { creator := c }) = true ↔ x.2.isKnownBad = false ∧ x.2.lastSeen ≤ 0 := by
  have hclean : ({ creator := c } : CreatorRecord).isKnownBad = false := rfl
  unfold evictedBefore
  cases hx : x.2.isKnownBad <;> simp [hclean]

/-- One record too many: the first of the order goes, of equals the one entered first. -/
lemma evictIfCrowded_one (h : b.size = cap + 1) :
    ∃ m ∈ b.entries, (∀ x ∈ b.entries, evictedBefore m x = true) ∧
      (∀ x, [x, m].Sublist b.entries → evictedBefore x m = false) ∧
      b.evictIfCrowded cap = b.erase m.1 := by
  set order := b.entries.mergeSort evictedBefore with horder
  have hperm : order.Perm b.entries := List.mergeSort_perm _ _
  have hsorted : order.Pairwise fun x y => evictedBefore x y = true :=
    List.pairwise_mergeSort evictedBefore_trans evictedBefore_total _
  have hnodup : order.Nodup := hperm.nodup_iff.mpr (List.Nodup.of_map _ b.nodup)
  rcases ho : order with - | ⟨m, rest⟩
  · have hlen := hperm.length_eq
    rw [ho] at hlen
    unfold Dict.size at h
    simp at hlen
    omega
  rw [ho] at hperm hsorted hnodup
  obtain ⟨hm, -⟩ := List.pairwise_cons.mp hsorted
  refine ⟨m, hperm.subset (by simp), fun x hx => ?_, fun x hx => ?_, ?_⟩
  · rcases List.mem_cons.mp (hperm.symm.subset hx) with rfl | hr
    · simpa using evictedBefore_total x x
    · exact hm x hr
  · rw [← Bool.not_eq_true]
    intro hle
    have hs := List.pair_sublist_mergeSort evictedBefore_trans evictedBefore_total hle hx
    rw [← horder, ho] at hs
    -- the record that goes first cannot come after another
    have hmr : m ∈ rest := by
      rcases List.cons_sublist_cons'.mp hs with hr | ⟨-, hr⟩
      · exact hr.subset (by simp)
      · exact hr.subset (by simp)
    exact (List.nodup_cons.mp hnodup).1 hmr
  · have hbig : ¬ b.size ≤ cap := by omega
    have herase : (b.erase m.1).size ≤ cap := by
      have hget := (b.mem_entries_iff m.1 m.2).mp (hperm.subset (by simp))
      have := Dict.length_erase hget
      unfold Dict.size at h ⊢
      omega
    rw [evictIfCrowded, if_neg hbig, ← horder, ho, evictAlong, if_neg hbig]
    rcases rest with - | ⟨y, rest⟩
    · rfl
    · rw [evictAlong, if_pos herase]

/-- A newcomer's entry evicts nothing, the newcomer or a clean record. -/
lemma get_evictIfCrowded_new (hc : b.get c = none) (hb : b.size ≤ cap) :
    ∃ gone : Option Text,
      (∀ d, (evictIfCrowded cap (b.set c { creator := c })).get d =
        if gone = some d then none else (b.set c { creator := c }).get d) ∧
      (∀ d r, gone = some d → b.get d = some r → r.isKnownBad = false) ∧
      (gone = some c ↔ cap ≤ b.size ∧
        ¬ ∃ d r, b.get d = some r ∧ r.isKnownBad = false ∧ r.lastSeen ≤ 0) ∧
      (evictIfCrowded cap (b.set c { creator := c })).size ≤ cap := by
  have hentries := Dict.entries_set_new ({ creator := c } : CreatorRecord) hc
  have hsize : (b.set c { creator := c }).size = b.size + 1 := by
    unfold Dict.size
    rw [hentries, List.length_append, List.length_singleton]
  by_cases hfull : cap ≤ b.size
  swap
  · have hfit : (b.set c { creator := c }).size ≤ cap := by omega
    rw [evictIfCrowded, if_pos hfit]
    refine ⟨none, fun d => by simp, fun d r h => by simp at h, ?_, hfit⟩
    exact ⟨fun h => by simp at h, fun h => absurd h.1 hfull⟩
  · obtain ⟨m, hm, hfirst, hstable, heq⟩ :=
      @evictIfCrowded_one cap (b.set c { creator := c }) (by omega)
    have hnew : (c, ({ creator := c } : CreatorRecord)) ∈ (b.set c { creator := c }).entries := by
      rw [hentries]
      simp
    have hmclean := (evictedBefore_new m).mp (hfirst _ hnew)
    have hget := (Dict.mem_entries_iff _ m.1 m.2).mp hm
    rw [heq]
    refine ⟨some m.1, fun d => ?_, ?_, ?_, ?_⟩
    · rw [Dict.get_erase]
      by_cases hd : d = m.1
      · rw [if_pos hd, if_pos (by rw [hd])]
      · rw [if_neg hd, if_neg (by simpa using fun h => hd h.symm)]
    · rintro d r hd hr
      obtain rfl : m.1 = d := by simpa using hd
      have hne : m.1 ≠ c := fun h => by simp [h, hc] at hr
      rw [Dict.get_set_ne _ _ hne, hr] at hget
      obtain rfl : r = m.2 := by simpa using hget
      exact hmclean.1
    · constructor
      · intro h
        obtain rfl : m.1 = c := by simpa using h
        have hmc : m = (m.1, { creator := m.1 }) := by
          refine Prod.ext rfl ?_
          simpa using hget.symm
        refine ⟨hfull, ?_⟩
        rintro ⟨d, r, hr, hclean, hold⟩
        have hd : [(d, r), m].Sublist (b.set m.1 { creator := m.1 }).entries := by
          rw [hentries, ← hmc]
          exact (List.singleton_sublist.mpr ((b.mem_entries_iff d r).mpr hr)).append
            (List.Sublist.refl [m])
        have := hstable (d, r) hd
        rw [hmc, (evictedBefore_new (d, r)).mpr ⟨hclean, hold⟩] at this
        exact Bool.noConfusion this
      · rintro ⟨-, hno⟩
        by_contra hmc
        have hne : m.1 ≠ c := fun h => hmc (by rw [h])
        rw [Dict.get_set_ne _ _ hne] at hget
        exact hno ⟨m.1, m.2, hget, hmclean⟩
    · have := Dict.length_erase hget
      unfold Dict.size at hsize hb ⊢
      omega

/-! ### Recording -/

lemma get_touch (b : ReputationBook) (c d : Text) (r : CreatorRecord) :
    (b.touch c r).get d = if d = c ∧ b.get c ≠ none then some r else b.get d := by
  unfold touch
  rcases hc : b.get c with - | u
  · simp
  · by_cases hd : d = c <;> simp [Dict.get_set, hd]

lemma size_touch (b : ReputationBook) (c : Text) (r : CreatorRecord) :
    (b.touch c r).size = b.size := by
  unfold touch
  rcases hc : b.get c with - | u
  · rfl
  · exact Dict.length_set_old r hc

/-- **Recording**: the record of the creator is written, and at most one other entry is gone, a
clean one; the record itself is gone for a newcomer to a full book without a place. -/
lemma recording_spec (now : ℚ) (x : Char) (update : CreatorRecord → CreatorRecord)
    (hb : b.size ≤ cap) :
    ∃ gone : Option Text,
      (∀ d, (b.recording cap now (some (x :: c)) update).get d =
        if gone = some d then none
        else if d = x :: c then
          some (update { (b.get (x :: c)).getD { creator := x :: c } with lastSeen := now })
        else b.get d) ∧
      (∀ d r, gone = some d → b.get d = some r → r.isKnownBad = false) ∧
      (gone = some (x :: c) ↔ b.get (x :: c) = none ∧ cap ≤ b.size ∧
        ¬ ∃ d r, b.get d = some r ∧ r.isKnownBad = false ∧ r.lastSeen ≤ 0) ∧
      (b.recording cap now (some (x :: c)) update).size ≤ cap := by
  rcases hc : b.get (x :: c) with - | u
  · obtain ⟨gone, hget, hclean, hgone, hsize⟩ := get_evictIfCrowded_new hc hb
    refine ⟨gone, fun d => ?_, hclean, by rw [hgone]; simp, ?_⟩
    · simp only [recording, record, hc, get_touch, hget, Option.getD_none]
      by_cases hd : d = x :: c
      · subst hd
        by_cases hg : gone = some (x :: c) <;> simp [hg]
      · simp [hd, Dict.get_set_ne]
    · simpa only [recording, record, hc, size_touch] using hsize
  · refine ⟨none, fun d => ?_, fun d r h => by simp at h, by simp, ?_⟩
    · simp only [recording, record, hc, get_touch, Option.getD_some]
      by_cases hd : d = x :: c <;> simp [hd]
    · simpa only [recording, record, hc, size_touch] using hb

/-- A newcomer to a book with room. -/
lemma recording_new (now : ℚ) {x : Char} (update : CreatorRecord → CreatorRecord)
    (hc : b.get (x :: c) = none) (hroom : b.size < cap) :
    (b.recording cap now (some (x :: c)) update).size = b.size + 1 ∧
      ∀ d, (b.recording cap now (some (x :: c)) update).get d =
        if d = x :: c then some (update { creator := x :: c, lastSeen := now }) else b.get d := by
  have hsize : (b.set (x :: c) { creator := x :: c }).size = b.size + 1 := by
    unfold Dict.size
    rw [Dict.entries_set_new _ hc, List.length_append, List.length_singleton]
  have hfit : evictIfCrowded cap (b.set (x :: c) { creator := x :: c }) =
      b.set (x :: c) { creator := x :: c } := if_pos (by omega)
  refine ⟨?_, fun d => ?_⟩
  · simp only [recording, record, hc, hfit, size_touch, hsize]
  · simp only [recording, record, hc, hfit, get_touch]
    by_cases hd : d = x :: c <;> simp [hd, Dict.get_set_ne]

/-! ### Steps -/

/-- An action records on a creator, or writes no record. -/
inductive Recorded (cap : ℕ) (b : ReputationBook) : BookAction → Prop where
  | wrote (a : BookAction) (now : ℚ) (x : Char) (c : Text)
      (update : CreatorRecord → CreatorRecord) (hw : a.writes = some (x :: c))
      (hu : ∀ r, a.written r = update { r with lastSeen := now })
      (hs : step cap b a = b.recording cap now (some (x :: c)) update) : Recorded cap b a
  | same (a : BookAction) (hw : a.writes = none) (hs : step cap b a = b) : Recorded cap b a
  | forgot (days now : ℚ) : Recorded cap b (.forget days now)

lemma step_recorded (a : BookAction) (hb : b.size ≤ cap) : Recorded cap b a := by
  cases a with
  | observe now creator =>
    rcases creator with - | - | ⟨x, c⟩
    · exact .same _ rfl rfl
    · exact .same _ rfl rfl
    · exact .wrote _ now x c _ rfl (fun _ => rfl) rfl
  | recordOpen now creator =>
    rcases creator with - | - | ⟨x, c⟩
    · exact .same _ rfl rfl
    · exact .same _ rfl rfl
    · exact .wrote _ now x c _ rfl (fun _ => rfl) rfl
  | recordClose now creator pnlLamports returnPct rugLossPct =>
    rcases creator with - | - | ⟨x, c⟩
    · exact .same _ rfl rfl
    · exact .same _ rfl rfl
    · exact .wrote _ now x c _ rfl (fun _ => rfl) rfl
  | forget days now => exact .forgot days now
  | evict => exact .same _ rfl (if_pos hb)

/-- Forgetting drops clean records alone. -/
lemma get_forgetOlderThan (b : ReputationBook) (days now : ℚ) (d : Text) :
    (b.forgetOlderThan days now).1.get d = b.get d ∨
      (b.forgetOlderThan days now).1.get d = none ∧
        ∀ r, b.get d = some r → r.isKnownBad = false := by
  unfold forgetOlderThan
  split_ifs with h
  · exact .inl rfl
  · rw [Dict.get_foldl_erase]
    split_ifs with hd
    · refine .inr ⟨rfl, fun r hr => ?_⟩
      obtain ⟨⟨d', u⟩, hmem, rfl⟩ := List.mem_map.mp hd
      obtain ⟨hu, hstale⟩ := List.mem_filter.mp hmem
      obtain rfl : u = r := by
        have := (b.mem_entries_iff d' u).mp hu
        rw [hr] at this
        exact (Option.some.inj this).symm
      simpa using (Bool.and_eq_true_iff.mp hstale).2
    · exact .inl rfl

lemma size_forgetOlderThan (b : ReputationBook) (days now : ℚ) :
    (b.forgetOlderThan days now).1.size ≤ b.size := by
  unfold forgetOlderThan
  split_ifs with h
  · exact le_refl _
  · exact Dict.length_foldl_erase_le _ b

lemma keeps_iff (a : BookAction) (hb : b.size ≤ cap) : Keeps cap b a ↔ HasRoom cap b a := by
  rcases step_recorded a hb with ⟨_, now, x, c, update, hw, hu, hs⟩ | ⟨_, hw, hs⟩ | ⟨days, now⟩
  · obtain ⟨gone, hget, hclean, hgone, hsize⟩ := recording_spec (c := c) now x update hb
    rw [← hs] at hget hsize
    constructor
    · intro h c' hc' hnone hfull
      obtain rfl : x :: c = c' := by simpa [hw] using hc'
      by_contra hno
      have := h.written _ hw
      rw [hget, if_pos (hgone.mpr ⟨hnone, hfull, hno⟩)] at this
      cases this
    · intro h
      refine ⟨fun c' hc' => ?_, fun d r hr hbad hd => ?_, hsize⟩
      · obtain rfl : x :: c = c' := by simpa [hw] using hc'
        have hng : gone ≠ some (x :: c) := fun hg => by
          obtain ⟨hnone, hfull, hno⟩ := hgone.mp hg
          exact hno (h _ hw hnone hfull)
        rw [hget, if_neg hng, if_pos rfl, hu]
      · rw [hget] at hd
        have hg : gone = some d := by
          by_contra hg
          rw [if_neg hg] at hd
          split_ifs at hd
          rw [hr] at hd
          cases hd
        rw [hclean d r hg hr] at hbad
        exact Bool.noConfusion hbad
  · refine ⟨fun _ c hc => by simp [hw] at hc, fun _ => ⟨fun c hc => by simp [hw] at hc, ?_, ?_⟩⟩
    · intro d r hr _ hd
      rw [hs, hr] at hd
      cases hd
    · rw [hs]
      exact hb
  · refine ⟨fun _ c hc => (by cases hc), fun _ => ⟨fun c hc => (by cases hc), ?_, ?_⟩⟩
    · intro d r hr hbad hd
      rcases b.get_forgetOlderThan days now d with h | ⟨-, h⟩
      · rw [show step cap b (.forget days now) = (b.forgetOlderThan days now).1 from rfl,
          h, hr] at hd
        cases hd
      · rw [h r hr] at hbad
        exact Bool.noConfusion hbad
    · exact (b.size_forgetOlderThan days now).trans hb

lemma size_step_le (a : BookAction) (hb : b.size ≤ cap) : (step cap b a).size ≤ cap := by
  rcases step_recorded a hb with ⟨_, now, x, c, update, -, -, hs⟩ | ⟨_, -, hs⟩ | ⟨days, now⟩
  · obtain ⟨-, -, -, -, hsize⟩ := recording_spec (c := c) now x update hb
    rwa [hs]
  · rwa [hs]
  · exact (b.size_forgetOlderThan days now).trans hb

/-- **What the book loses.** Along every run from a book within its bound, every record written
stays with its counts, no known-bad creator gives way to a clean one and the book fits, exactly
when every newcomer to a full book finds a clean record last seen at time zero or before. -/
theorem keeps_what_matters_iff (cap : ℕ) (b : ReputationBook) (hb : b.size ≤ cap)
    (as : List BookAction) :
    Runs.Along (step cap) (Keeps cap) b as ↔ Runs.Along (step cap) (HasRoom cap) b as :=
  Runs.along_iff_along (J := fun b => b.size ≤ cap) (fun _ a h => keeps_iff a h)
    (fun _ a h _ => size_step_le a h) hb as

/-- A creator seen, then one of its mints closed as a rug. -/
def seenThenRug : List BookAction :=
  [.observe 100 (some ['a']), .recordClose 200 (some ['a']) (-5) (-90) 60]

/-- A rug of a creator in a full book is kept. -/
theorem keeps_known_rug :
    Runs.Along (step 1) (Keeps 1) ∅ seenThenRug ∧
      ((Runs.after (step 1) ∅ seenThenRug).get ['a']).map CreatorRecord.isKnownBad = some true := by
  refine ⟨(keeps_what_matters_iff 1 ∅ (by decide) seenThenRug).mpr ⟨?_, ?_, trivial⟩, ?_⟩
  · -- the book is empty
    intro c _ _ hfull
    exact absurd hfull (by decide)
  · -- the creator is in the book
    intro c hc hnew
    obtain rfl := Option.some.inj hc
    exact absurd hnew (by decide +kernel)
  · decide +kernel

/-! ### A newcomer's rug -/

/-- Launches of as many creators, all seen at time one. -/
def fill (n : ℕ) : List BookAction :=
  (List.range n).map fun i => .observe 1 (some (List.replicate (i + 1) 'a'))

lemma fill_succ (n : ℕ) :
    fill (n + 1) = fill n ++ [.observe 1 (some (List.replicate (n + 1) 'a'))] := by
  simp [fill, List.range_succ]

/-- The book fills with clean records seen at time one. -/
lemma after_fill {n : ℕ} (hn : n ≤ cap) :
    (Runs.after (step cap) ∅ (fill n)).size = n ∧
      ∀ d r, (Runs.after (step cap) ∅ (fill n)).get d = some r →
        r.lastSeen = 1 ∧ ∃ i < n, d = List.replicate (i + 1) 'a' := by
  induction n with
  | zero => exact ⟨rfl, fun d r h => nomatch h⟩
  | succ n ih =>
    obtain ⟨hsize, hrec⟩ := ih (by omega)
    rw [fill_succ, Runs.after_snoc]
    have hnew : (Runs.after (step cap) ∅ (fill n)).get ('a' :: List.replicate n 'a') = none := by
      rcases hg : (Runs.after (step cap) ∅ (fill n)).get ('a' :: List.replicate n 'a') with - | r
      · rfl
      · obtain ⟨-, i, hi, he⟩ := hrec _ r hg
        have := congrArg List.length he
        simp at this
        omega
    obtain ⟨hsize', hget⟩ := recording_new 1 CreatorRecord.seen hnew (hsize.trans_lt hn)
    refine ⟨hsize'.trans (by rw [hsize]), fun d r hd => ?_⟩
    replace hd := (hget d).symm.trans hd
    split_ifs at hd with h
    · obtain rfl := Option.some.inj hd
      exact ⟨rfl, n, by omega, h⟩
    · obtain ⟨hseen, i, hi, he⟩ := hrec d r hd
      exact ⟨hseen, i, by omega, he⟩

lemma newcomer_lost (cap : ℕ) :
    ¬ Runs.Along (step cap) (Keeps cap) ∅
      (fill cap ++ [.recordClose 1 (some ['b']) (-5) (-90) 60]) := by
  intro h
  obtain ⟨hsize, hrec⟩ := after_fill (le_refl cap)
  have hlast := (Runs.along_append.mp h).2.1
  rw [keeps_iff _ hsize.le] at hlast
  have hnew : (Runs.after (step cap) ∅ (fill cap)).get ['b'] = none := by
    rcases hg : (Runs.after (step cap) ∅ (fill cap)).get ['b'] with - | r
    · rfl
    · obtain ⟨-, i, -, he⟩ := hrec _ r hg
      rw [List.replicate_succ] at he
      exact absurd (List.cons.inj he).1 (by decide)
  obtain ⟨d, r, hr, -, hold⟩ := hlast ['b'] rfl hnew hsize.ge
  rw [(hrec d r hr).1] at hold
  norm_num at hold

/-- **A rug of a creator first seen when the book is full leaves no trace.** -/
theorem newcomer_rug_lost :
    ¬ Runs.Along (step maxCreators) (Keeps maxCreators) ∅
      (fill maxCreators ++ [.recordClose 1 (some ['b']) (-5) (-90) 60]) :=
  newcomer_lost maxCreators

end ReputationBook

end PumpGrok
