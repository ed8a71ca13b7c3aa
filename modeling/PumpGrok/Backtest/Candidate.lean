import PumpGrok.Core.CanonicalJson
import PumpGrok.Core.Types

/-!
Candidate parameter sets: optional overrides of the filter and of the exit settings, named by the
hash of what they say. The name forgets how the overrides are written: a float and the text of its
decimal, and a missing mapping and an empty one, have one name.
-/

namespace PumpGrok

open Json (Value)

abbrev Hash := Text

/-- `[0-9a-f]{64}`. -/
def isHash (t : Text) : Bool :=
  t.length == 64 && t.all fun c => ('0' ≤ c && c ≤ '9') || ('a' ≤ c && c ≤ 'f')

abbrev Overrides := List (Text × Value)

/-! ### The settings an override may name -/

inductive Knobs where
  | filter
  | exits
  deriving DecidableEq

def Knobs.fields : Knobs → List Text
  | .filter =>
    ["min_unique_buyers".toList, "max_curve_progress".toList, "require_metadata".toList,
      "min_age_seconds".toList, "max_risk_score".toList, "min_total_score".toList,
      "block_creator_after_rugs".toList, "rug_loss_pct".toList,
      "one_position_per_creator".toList, "forget_creators_after_days".toList]
  | .exits =>
    ["stop_loss_pct".toList, "take_profit_pct".toList, "trailing_stop_pct".toList,
      "max_hold_seconds".toList, "stop_loss_poll_seconds".toList]

/-- Tunable names the replay never consults. -/
def scoringKnobs : List Text :=
  ["audit".toList, "narrative".toList, "timing".toList, "metrics".toList, "weights".toList,
    "timing_cache_seconds".toList, "min_total_score".toList]

/-- The validation of a field by its settings model, and the digest. -/
structure CandidateDeps where
  accepts : Knobs → Text → Value → Bool
  sha256 : Text → Hash
  sha256_hex : ∀ t, isHash (sha256 t) = true

def checkKnobs (deps : CandidateDeps) (k : Knobs) : Option Overrides → Bool
  | none => true
  | some ms =>
    (ms.map Prod.fst).Nodup && ms.all fun m =>
      !scoringKnobs.contains m.1 && k.fields.contains m.1 && deps.accepts k m.1 m.2

/-- A validated set of overrides. -/
structure CandidateParams (deps : CandidateDeps) where
  filter : Option Overrides
  exits : Option Overrides
  filter_ok : checkKnobs deps .filter filter = true
  exits_ok : checkKnobs deps .exits exits = true

/-- Upgrade sets are validated and named as candidates are. -/
abbrev ParamSet := CandidateParams

variable {deps : CandidateDeps}

namespace CandidateParams

def validated (deps : CandidateDeps) (filter exits : Option Overrides) :
    Option (CandidateParams deps) :=
  if h : checkKnobs deps .filter filter = true ∧ checkKnobs deps .exits exits = true then
    some ⟨filter, exits, h.1, h.2⟩
  else none

lemma validated_eq {filter exits : Option Overrides} {p : CandidateParams deps}
    (h : validated deps filter exits = some p) : p.filter = filter ∧ p.exits = exits := by
  unfold validated at h
  split_ifs at h
  cases h
  exact ⟨rfl, rfl⟩

end CandidateParams

/-! ### The content hash -/

/-- `str(Decimal(text))` of a float's text: plain digits down to a millionth, else an exponent. -/
def decimalText (t : Json.FloatText) : Text :=
  let shift : ℤ :=
    match t.exponent with
    | none => 0
    | some (negative, d, ds) =>
      let n : ℕ := Nat.ofDigitChars 10 (Json.digits (d :: ds)) 0
      if negative then -n else n
  let exponent : ℤ := shift - t.fraction.length
  let digits : Text := Nat.toDigits 10
    (Nat.ofDigitChars 10 (Nat.toDigits 10 t.whole ++ Json.digits t.fraction) 0)
  let left : ℤ := exponent + digits.length
  let point : ℤ := if exponent ≤ 0 ∧ -6 < left then left else 1
  let plain : Text :=
    if point ≤ 0 then '0' :: '.' :: (List.replicate (-point).toNat '0' ++ digits)
    else if digits.length ≤ point then
      digits ++ List.replicate (point - digits.length).toNat '0'
    else digits.take point.toNat ++ '.' :: digits.drop point.toNat
  let power : Text :=
    if left = point then []
    else 'E' :: (if 0 ≤ left - point then '+' :: Json.decimal (left - point)
      else Json.decimal (left - point))
  Json.signed t.negative (plain ++ power)

mutual

/-- A leaf as a scalar of canonical JSON, a decimal as its text; `none` where hashing raises. -/
def normalizedLeaf : Value → Option Value
  | .null => none
  | .float (.finite t) => some (.str (decimalText t))
  | .float _ => none
  | .arr vs => (normalizedItems vs).map .arr
  | .obj ms => (normalizedMembers ms).map .obj
  | v => some v

def normalizedItems : List Value → Option (List Value)
  | [] => some []
  | v :: vs => do
    let v ← normalizedLeaf v
    let vs ← normalizedItems vs
    some (v :: vs)

def normalizedMembers : Overrides → Option Overrides
  | [] => some []
  | (k, v) :: ms => do
    let v ← normalizedLeaf v
    let ms ← normalizedMembers ms
    some ((k, v) :: ms)

end

/-- No mapping and an empty one both mean no overrides. -/
def normalizedMapping : Option Overrides → Option Overrides
  | none => some []
  | some ms => normalizedMembers ms

/-- What the hash is taken of. -/
def contentText (p : CandidateParams deps) : Option Text := do
  let exits ← normalizedMapping p.exits
  let filter ← normalizedMapping p.filter
  (CanonicalJson.canonicalJson
    [("exits".toList, .obj exits), ("filter".toList, .obj filter)]).toOption

mutual

/-- What is hashed has no float. -/
lemma normalizedLeaf_ok {w : Value} : ∀ v : Value, normalizedLeaf v = some w →
    ∀ path, CanonicalJson.normalize path w = .ok w
  | .null, h => by simp [normalizedLeaf] at h
  | .bool b, h => by
    obtain rfl : Value.bool b = w := by simpa [normalizedLeaf] using h
    exact fun path => by simp [CanonicalJson.normalize]
  | .num n, h => by
    obtain rfl : Value.num n = w := by simpa [normalizedLeaf] using h
    exact fun path => by simp [CanonicalJson.normalize]
  | .str t, h => by
    obtain rfl : Value.str t = w := by simpa [normalizedLeaf] using h
    exact fun path => by simp [CanonicalJson.normalize]
  | .float x, h => by
    rcases x with t | b | _
    · obtain rfl : Value.str (decimalText t) = w := by simpa [normalizedLeaf] using h
      exact fun path => by simp [CanonicalJson.normalize]
    · simp [normalizedLeaf] at h
    · simp [normalizedLeaf] at h
  | .arr vs, h => by
    rw [normalizedLeaf] at h
    obtain ⟨us, hus, rfl⟩ := Option.map_eq_some_iff.mp h
    exact fun path => by simp [CanonicalJson.normalize, normalizedItems_ok vs hus, Except.map]
  | .obj ms, h => by
    rw [normalizedLeaf] at h
    obtain ⟨us, hus, rfl⟩ := Option.map_eq_some_iff.mp h
    exact fun path => by simp [CanonicalJson.normalize, normalizedMembers_ok ms hus, Except.map]

lemma normalizedItems_ok {us : List Value} : ∀ vs : List Value, normalizedItems vs = some us →
    ∀ path i, CanonicalJson.normalizeItems path i us = .ok us
  | [], h => by
    obtain rfl : [] = us := by simpa [normalizedItems] using h
    exact fun path i => by simp [CanonicalJson.normalizeItems]
  | v :: vs, h => by
    rw [normalizedItems] at h
    obtain ⟨v', hv, h⟩ := Option.bind_eq_some_iff.mp h
    obtain ⟨us', hus, h⟩ := Option.bind_eq_some_iff.mp h
    cases h
    intro path i
    rw [CanonicalJson.normalizeItems, normalizedLeaf_ok v hv, normalizedItems_ok vs hus]
    rfl

lemma normalizedMembers_ok {us : Overrides} : ∀ ms : Overrides, normalizedMembers ms = some us →
    ∀ path, CanonicalJson.normalizeMembers path us = .ok us
  | [], h => by
    obtain rfl : [] = us := by simpa [normalizedMembers] using h
    exact fun path => by simp [CanonicalJson.normalizeMembers]
  | (k, v) :: ms, h => by
    rw [normalizedMembers] at h
    obtain ⟨v', hv, h⟩ := Option.bind_eq_some_iff.mp h
    obtain ⟨us', hus, h⟩ := Option.bind_eq_some_iff.mp h
    cases h
    intro path
    rw [CanonicalJson.normalizeMembers, normalizedLeaf_ok v hv, normalizedMembers_ok ms hus]
    rfl

end

lemma normalizedMapping_ok {o : Option Overrides} {us : Overrides}
    (h : normalizedMapping o = some us) (path : Text) :
    CanonicalJson.normalizeMembers path us = .ok us := by
  cases o with
  | none =>
    cases h
    simp [CanonicalJson.normalizeMembers]
  | some ms => exact normalizedMembers_ok ms h path

/-- The members of a mapping in the order of their keys, at every depth. -/
def sortedMembers (ms : Overrides) : Overrides :=
  CanonicalJson.sortMembers (CanonicalJson.sortKeysMembers ms)

/-- **The hashed text** is the dump of both normalized mappings. -/
lemma contentText_eq {p : CandidateParams deps} {exits filter : Overrides}
    (he : normalizedMapping p.exits = some exits) (hf : normalizedMapping p.filter = some filter) :
    contentText p = some (Json.dumps CanonicalJson.compact
      (.obj [("exits".toList, .obj (sortedMembers exits)),
        ("filter".toList, .obj (sortedMembers filter))])) := by
  have hle : "exits".toList ≤ "filter".toList := by decide
  have hjson : CanonicalJson.canonicalJson
      [("exits".toList, .obj exits), ("filter".toList, .obj filter)] =
      .ok (Json.dumps CanonicalJson.compact
        (.obj [("exits".toList, .obj (sortedMembers exits)),
          ("filter".toList, .obj (sortedMembers filter))])) := by
    rw [CanonicalJson.canonicalJson]
    simp only [CanonicalJson.normalize, CanonicalJson.normalizeMembers, normalizedMapping_ok he,
      normalizedMapping_ok hf, Except.map, bind, Except.bind, CanonicalJson.sortKeys,
      CanonicalJson.sortKeysMembers]
    rw [CanonicalJson.sortMembers_pair_le hle]
    rfl
  simp only [contentText, he, hf, Option.bind_eq_bind, Option.bind_some, hjson]
  rfl

def contentHash (p : CandidateParams deps) : Option Hash := (contentText p).map deps.sha256

lemma contentHash_hex {p : CandidateParams deps} {h : Hash} (hp : contentHash p = some h) :
    isHash h = true := by
  obtain ⟨t, -, rfl⟩ := Option.map_eq_some_iff.mp hp
  exact deps.sha256_hex t

/-! ### Stored content -/

def optionalObject : Option Overrides → Value
  | none => .null
  | some ms => .obj ms

def modelDump (p : ParamSet deps) : Value :=
  .obj [("filter".toList, optionalObject p.filter), ("exits".toList, optionalObject p.exits)]

/-- A field of a decoded set: absent, null or an object. -/
def decodedKnobs : Option Value → Option (Option Overrides)
  | none => some none
  | some .null => some none
  | some (.obj ms) => some (some ms)
  | some _ => none

/-- A set from the mapping of its fields; `none` where validation refuses it. -/
def candidateFrom (deps : CandidateDeps) (ms : Overrides) : Option (CandidateParams deps) :=
  if (ms.map Prod.fst).all fun k => k = "filter".toList ∨ k = "exits".toList then do
    let filter ← decodedKnobs (AssocList.get "filter".toList ms.reverse)
    let exits ← decodedKnobs (AssocList.get "exits".toList ms.reverse)
    CandidateParams.validated deps filter exits
  else none

/-- `ParamSet.model_validate(json.loads(raw))`; `none` where it raises. -/
def decodeParamSet (deps : CandidateDeps) (raw : Text) : Option (ParamSet deps) :=
  match Json.loads raw with
  | some (.obj ms) => candidateFrom deps ms
  | _ => none

def dumpedText (p : ParamSet deps) : Text :=
  Json.dumps CanonicalJson.compact (CanonicalJson.sortKeys (modelDump p))

/-- The canonical text of a set, refused unless it decodes back to the same hash. -/
def canonicalParamSet (p : ParamSet deps) : Option Text :=
  match (decodeParamSet deps (dumpedText p)).bind contentHash, contentHash p with
  | some h, some h' => if h = h' then some (dumpedText p) else none
  | _, _ => none

/-- A text that may be stored decodes to a set of the same hash. -/
lemma canonicalParamSet_spec {p : ParamSet deps} {t : Text} (h : canonicalParamSet p = some t) :
    t = dumpedText p ∧ ∃ q, decodeParamSet deps t = some q ∧ contentHash q = contentHash p := by
  unfold canonicalParamSet at h
  split at h
  · rename_i h₁ h₂ hq hp
    split_ifs at h with heq
    obtain ⟨q, hdec, hhash⟩ := Option.bind_eq_some_iff.mp hq
    cases h
    exact ⟨rfl, q, hdec, by rw [hhash, hp, heq]⟩
  · exact nomatch h

lemma sortKeys_optionalObject (o : Option Overrides) :
    ∃ o', CanonicalJson.sortKeys (optionalObject o) = optionalObject o' := by
  cases o with
  | none => exact ⟨none, by simp [optionalObject, CanonicalJson.sortKeys]⟩
  | some ms =>
    refine ⟨some (CanonicalJson.sortMembers (CanonicalJson.sortKeysMembers ms)), ?_⟩
    simp only [optionalObject, CanonicalJson.sortKeys]

lemma decodedKnobs_optionalObject (o : Option Overrides) :
    decodedKnobs (some (optionalObject o)) = some o := by
  cases o <;> rfl

/-- The text with the members of a set in the order of their keys. -/
def orderedText (filter exits : Option Overrides) : Text :=
  Json.dumps CanonicalJson.compact
    (.obj [("exits".toList, optionalObject exits), ("filter".toList, optionalObject filter)])

lemma dumpedText_ordered (p : ParamSet deps) :
    ∃ filter exits, dumpedText p = orderedText filter exits := by
  obtain ⟨f, hf⟩ := sortKeys_optionalObject p.filter
  obtain ⟨e, he⟩ := sortKeys_optionalObject p.exits
  refine ⟨f, e, ?_⟩
  rw [dumpedText, modelDump, orderedText, CanonicalJson.sortKeys]
  simp only [CanonicalJson.sortKeysMembers, hf, he]
  have hle : ¬ "filter".toList ≤ "exits".toList := by decide
  rw [CanonicalJson.sortMembers_pair_gt hle]

lemma decode_ordered {filter exits : Option Overrides} {q : ParamSet deps}
    (h : decodeParamSet deps (orderedText filter exits) = some q) :
    q.filter = filter ∧ q.exits = exits := by
  have hfilter : AssocList.get "filter".toList
      [("exits".toList, optionalObject exits), ("filter".toList, optionalObject filter)].reverse =
        some (optionalObject filter) := by simp [AssocList.get]
  have hexits : AssocList.get "exits".toList
      [("exits".toList, optionalObject exits), ("filter".toList, optionalObject filter)].reverse =
        some (optionalObject exits) := by simp [AssocList.get]
  rw [orderedText, decodeParamSet, Json.loads_dumps] at h
  simp only [candidateFrom] at h
  split_ifs at h with hkeys
  rw [hfilter, hexits, decodedKnobs_optionalObject, decodedKnobs_optionalObject] at h
  exact CandidateParams.validated_eq h

/-- **A stored text** is determined by the set it decodes to. -/
lemma dumpedText_of_decode {p : ParamSet deps} {q : ParamSet deps}
    (h : decodeParamSet deps (dumpedText p) = some q) :
    dumpedText p = orderedText q.filter q.exits := by
  obtain ⟨f, e, ht⟩ := dumpedText_ordered p
  rw [ht] at h ⊢
  obtain ⟨hf, he⟩ := decode_ordered h
  rw [hf, he]

end PumpGrok
