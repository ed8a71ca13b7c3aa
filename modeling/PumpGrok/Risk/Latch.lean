import PumpGrok.Risk.KillSwitch

/-!
The latch file as text: what its writers put into it and what a reader takes from its first line.
-/

namespace PumpGrok

open PyText

/-- The line of a latch file that is read. -/
def latchLine (content : Text) : Text := strip ((splitLines content).headD [])

/-- The reasons a latch keeps: one line, without blanks around it. A flatten's reason is not empty
and does not start with the separators after the keyword; a plain one does not start with the
keyword and a separator. -/
def LatchReadable (reason : Text) (flatten : Bool) : Prop :=
  (∀ c ∈ reason, isLineEnd c = false) ∧
    if flatten then
      rstrip reason = reason ∧ reason ≠ [] ∧ reason.head? ≠ some ' ' ∧ reason.head? ≠ some ':'
    else
      strip reason = reason ∧ reason ≠ "FLATTEN".toList ∧
        "FLATTEN ".toList.isPrefixOf reason = false ∧ "FLATTEN:".toList.isPrefixOf reason = false

instance (reason : Text) (flatten : Bool) : Decidable (LatchReadable reason flatten) := by
  unfold LatchReadable
  infer_instance

/-- The state of a plain line, when it is not read as a flatten. -/
lemma fileState_plain (line : Text) :
    (fileState line).flattenRequested = false ↔
      line ≠ "FLATTEN".toList ∧ "FLATTEN ".toList.isPrefixOf line = false ∧
        "FLATTEN:".toList.isPrefixOf line = false := by
  unfold fileState
  split_ifs with h₁ h₂
  · simp only [false_iff, not_and]
    rcases h₁ with rfl | rfl
    · exact fun h => absurd rfl h
    · exact fun _ _ => by decide
  · simp only [false_iff, not_and]
    rcases h₂ with h₂ | h₂ <;> simp_all
  · rw [not_or] at h₁ h₂
    simp only [true_iff]
    exact ⟨h₁.1, Bool.eq_false_iff.mpr h₂.1, Bool.eq_false_iff.mpr h₂.2⟩

lemma fileState_reason_plain {line : Text} (h : (fileState line).flattenRequested = false) :
    fileState line =
      { active := true, source := some .file, reason := line, flattenRequested := false } := by
  unfold fileState at h ⊢
  split_ifs at h ⊢
  rfl

lemma latchLine_plain_iff {reason : Text} :
    latchLine reason = reason ↔ (∀ c ∈ reason, isLineEnd c = false) ∧ strip reason = reason := by
  rw [latchLine, headD_splitLines]
  constructor
  · intro h
    have hle := length_strip_le (reason.takeWhile fun c => !isLineEnd c)
    have hpre := List.takeWhile_prefix (l := reason) fun c => !isLineEnd c
    have hall : (reason.takeWhile fun c => !isLineEnd c) = reason :=
      hpre.eq_of_length_le (by rw [h] at hle; exact hle)
    rw [hall] at h
    exact ⟨fun c hc => by simpa using List.takeWhile_eq_self_iff.mp hall c hc, h⟩
  · rintro ⟨hc, hs⟩
    rw [List.takeWhile_eq_self_iff.mpr fun c hcr => by simp [hc c hcr], hs]

/-- The first line of a flatten's latch: the keyword, and the reason up to a line end or trailing
blanks. -/
lemma latchLine_flatten (reason : Text) :
    latchLine ("FLATTEN ".toList ++ reason) =
      if rstrip (reason.takeWhile fun c => !isLineEnd c) = [] then "FLATTEN".toList
      else "FLATTEN ".toList ++ rstrip (reason.takeWhile fun c => !isLineEnd c) := by
  have hhead : (("FLATTEN ".toList ++ reason).takeWhile fun c => !isLineEnd c) =
      "FLATTEN ".toList ++ reason.takeWhile fun c => !isLineEnd c :=
    List.takeWhile_append_of_pos (by simp [isLineEnd])
  have hstrip : lstrip ("FLATTEN ".toList ++ reason.takeWhile fun c => !isLineEnd c) =
      "FLATTEN ".toList ++ reason.takeWhile fun c => !isLineEnd c :=
    lstrip_cons_of_not_space (by decide)
  rw [latchLine, headD_splitLines, hhead, strip, hstrip, rstrip_append]
  rfl

/-- The state of a flatten's latch. -/
lemma fileState_flatten (line : Text) :
    fileState ("FLATTEN ".toList ++ line) =
      { active := true, source := some .file,
        reason := line.dropWhile fun c => c = ' ' || c = ':', flattenRequested := true } := by
  have hp : "FLATTEN ".toList.isPrefixOf ("FLATTEN ".toList ++ line) = true := by
    rw [List.isPrefixOf_iff_prefix]
    exact List.prefix_append _ _
  unfold fileState
  rw [if_neg, if_pos (.inl hp)]
  · rfl
  · rintro (h | h)
    · have := congrArg List.length h
      simp at this
    · have := congrArg (·[7]?) h
      simp at this

lemma dropSeparators_iff {t : Text} (ht : t ≠ []) :
    (t.dropWhile fun c => c = ' ' || c = ':') = t ↔ t.head? ≠ some ' ' ∧ t.head? ≠ some ':' := by
  rcases t with - | ⟨c, t⟩
  · exact absurd rfl ht
  · have hlen := (List.dropWhile_suffix (l := t) fun c => c = ' ' || c = ':').length_le
    simp only [List.dropWhile_cons, List.head?_cons, ne_eq, Option.some.injEq]
    split_ifs with hc
    · simp only [Bool.or_eq_true, decide_eq_true_eq] at hc
      constructor
      · intro h
        have := congrArg List.length h
        simp only [List.length_cons] at this
        omega
      · rintro ⟨h₁, h₂⟩
        exact absurd hc (not_or.mpr ⟨h₁, h₂⟩)
    · simpa using hc

/-- The latch's line gives back the reason and the flag, exactly for the reasons a latch keeps. -/
lemma fileState_latch_iff (reason : Text) (flatten : Bool) :
    fileState (latchLine (killFileText reason flatten)) =
        { active := true, source := some .file, reason := reason, flattenRequested := flatten } ↔
      LatchReadable reason flatten := by
  cases flatten with
  | false =>
    have hline : ∀ line, fileState line =
          { active := true, source := some .file, reason := reason, flattenRequested := false } ↔
        (fileState line).flattenRequested = false ∧ line = reason := by
      intro line
      constructor
      · intro h
        have hf : (fileState line).flattenRequested = false := by rw [h]
        rw [fileState_reason_plain hf] at h
        exact ⟨hf, congrArg KillState.reason h⟩
      · rintro ⟨hf, rfl⟩
        exact fileState_reason_plain hf
    simp only [killFileText, LatchReadable, Bool.false_eq_true, if_false]
    rw [hline, fileState_plain]
    constructor
    · rintro ⟨hf, hr⟩
      rw [hr] at hf
      obtain ⟨hc, hs⟩ := latchLine_plain_iff.mp hr
      exact ⟨hc, hs, hf⟩
    · rintro ⟨hc, hs, hf⟩
      have hr := latchLine_plain_iff.mpr ⟨hc, hs⟩
      rw [hr]
      exact ⟨hf, rfl⟩
  | true =>
    simp only [killFileText, LatchReadable, if_true]
    rw [latchLine_flatten]
    split_ifs with hblank
    · constructor
      · intro h
        exfalso
        have hr : "flatten requested".toList = reason := congrArg KillState.reason h
        rw [← hr] at hblank
        revert hblank
        decide
      · rintro ⟨hc, hs, hne, -⟩
        rw [List.takeWhile_eq_self_iff.mpr fun c hcr => by simp [hc c hcr], hs] at hblank
        exact absurd hblank hne
    · rw [fileState_flatten]
      simp only [KillState.mk.injEq, true_and, and_true]
      constructor
      · intro h
        have hpre : rstrip (reason.takeWhile fun c => !isLineEnd c) <+: reason :=
          (rstrip_isPrefix _).trans (List.takeWhile_prefix _)
        have hle := (List.dropWhile_suffix (l := rstrip (reason.takeWhile fun c => !isLineEnd c))
          fun c => c = ' ' || c = ':').length_le
        rw [h] at hle
        have hkept := hpre.eq_of_length_le hle
        have hall : (reason.takeWhile fun c => !isLineEnd c) = reason :=
          (List.takeWhile_prefix _).eq_of_length_le
            (hle.trans (length_rstrip_le _))
        rw [hall] at hkept
        have hne : reason ≠ [] := by
          rintro rfl
          exact hblank rfl
        refine ⟨fun c hc => by simpa using List.takeWhile_eq_self_iff.mp hall c hc, hkept, hne, ?_⟩
        rw [hall, hkept] at h
        exact (dropSeparators_iff hne).mp h
      · rintro ⟨hc, hs, hne, hhead⟩
        rw [List.takeWhile_eq_self_iff.mpr fun c hcr => by simp [hc c hcr], hs]
        exact (dropSeparators_iff hne).mpr hhead

/-- A process as it starts: what it keeps in memory is empty, and it reads the channel from the
committed count. -/
def KillSwitch.started (env : Text) (hasPath : Bool) (file : LatchFile) (alerts : AlertChannel) :
    KillSwitch where
  envStart := env
  hasPath := hasPath
  file := file
  alerts := { alerts with next := alerts.committed }

/-- **The latch round trip.** A process started without the environment derives its state from the
latch's line, and this is the reason and the flag written, exactly for the reasons a latch keeps. -/
theorem latch_round_trip (reason : Text) (flatten : Bool) (alerts : AlertChannel)
    (events : List Event) :
    let file : LatchFile := { content := some (killFileText reason flatten) }
    let state := ((KillSwitch.started [] true file alerts).poll events).1
    state = fileState (latchLine (killFileText reason flatten)) ∧
    ((state.reason = reason ∧ state.flattenRequested = flatten) ↔
      LatchReadable reason flatten) := by
  intro file state
  have hread : state = fileState (latchLine (killFileText reason flatten)) := by
    have hactive : ∀ line, (fileState line).active = true := by
      intro line
      unfold fileState
      split_ifs <;> rfl
    have hengaged : (KillSwitch.started [] true file alerts).engagedState events =
        (fileState (latchLine (killFileText reason flatten)),
          KillSwitch.started [] true file alerts) := rfl
    simp only [state, KillSwitch.poll, hengaged, hactive, Bool.not_true, Bool.false_eq_true,
      if_false]
    rfl
  refine ⟨hread, ?_⟩
  have hsource : state =
      { active := true
        source := some .file
        reason := state.reason
        flattenRequested := state.flattenRequested } := by
    rw [hread]
    unfold fileState
    split_ifs <;> rfl
  rw [← fileState_latch_iff, ← hread]
  constructor
  · rintro ⟨hr, hf⟩
    rw [hsource, hr, hf]
  · intro h
    rw [h]
    exact ⟨rfl, rfl⟩

/-- A plain set whose reason starts with the keyword is read back as a flatten request. -/
theorem latch_reason_misread :
    let reason := "FLATTEN is not needed".toList
    let file : LatchFile := { content := some (killFileText reason false) }
    let state := ((KillSwitch.started [] true file {}).poll []).1
    state.flattenRequested = true ∧ state.reason = "is not needed".toList := by
  decide +kernel

end PumpGrok
