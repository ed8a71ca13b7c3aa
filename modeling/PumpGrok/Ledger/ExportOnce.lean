import Mathlib
import PumpGrok.Ledger.Export

/-!
Exports that may die at any byte: what each target holds after any history, and what it holds
once an export returns.
-/

namespace PumpGrok

open Json (Value)

namespace Export

open CanonicalJson (text canonicalJson)

variable {conv : Conversions}

/-! ### Records -/

section Records

variable {l : Text} {ms : List (Text × Value)}

lemma readRecord_encode {v : Value} (h : Json.loads l = some v) :
    readRecord (Bytes.encode l) = some v := by
  rw [readRecord, Bytes.decode_encode, Option.bind_some, h]

lemma exportedSeq_encode {t : Value} {n : ℤ} (h : Json.loads l = some (.obj ms))
    (htype : AssocList.get (text "type") ms.reverse = some t)
    (hseq : AssocList.get (text "seq") ms.reverse = some (.num n)) :
    exportedSeq (Bytes.encode l) = some n := by
  simp [exportedSeq, readRecord_encode h, recordGet, htype, hseq, asInt]

/-- A line that the exporter takes for a record of its own. -/
def isRecord (l : Text) : Bool := (exportedSeq (Bytes.encode l)).isSome

/-- A line of the exporter for a seq. -/
structure LineFor (seq : ℕ) (l : Text) : Prop where
  printable : Json.Printable l
  seq : exportedSeq (Bytes.encode l) = some (seq : ℤ)

lemma journalLine_for {e : Event} (h : journalLine e = .ok l) : LineFor e.seq l := by
  obtain rfl := CanonicalJson.canonicalJson_ok h
  refine ⟨Json.printable_dumps _ _, exportedSeq_encode (Json.loads_dumps _ _)
    (t := CanonicalJson.sortKeys (.str e.type)) ?_ ?_⟩
  · exact CanonicalJson.get_sortMembers (by simp [text]) (by simp)
  · exact CanonicalJson.get_sortMembers (v := .num e.seq) (by simp [text]) (by simp)

lemma dumpTrade_for {seq : ℕ} {t : Value}
    (htype : AssocList.get (text "type") ms.reverse = some t)
    (hseq : AssocList.get (text "seq") ms.reverse = some (.num seq)) :
    LineFor seq (dumpTrade ms) :=
  ⟨Json.printable_dumps _ _, exportedSeq_encode (Json.loads_dumps _ _) htype hseq⟩

lemma map_ok_iff {α β : Type} {f : α → β} {x : Except Text α} {b : β} :
    x.map f = .ok b ↔ ∃ a, x = .ok a ∧ f a = b := by
  rcases x with e | a <;> simp [Except.map]

lemma tradeLine_for {e : Event} (h : tradeLine conv e = .ok (some l)) : LineFor e.seq l := by
  unfold tradeLine at h
  split_ifs at h
  · obtain ⟨ms, hms, hl⟩ := map_ok_iff.mp h
    obtain rfl := Option.some.inj hl
    obtain ⟨ts, -, hms⟩ := except_bind_ok_iff.mp hms
    obtain ⟨filled, -, hms⟩ := except_bind_ok_iff.mp hms
    obtain ⟨price, -, hms⟩ := except_bind_ok_iff.mp hms
    cases hms
    exact dumpTrade_for (t := .str (text "buy")) (by simp [AssocList.get, text])
      (by simp [AssocList.get, text])
  · obtain ⟨ms, hms, hl⟩ := map_ok_iff.mp h
    obtain rfl := Option.some.inj hl
    obtain ⟨ts, -, hms⟩ := except_bind_ok_iff.mp hms
    cases hms
    exact dumpTrade_for (t := .str (text "skip")) (by simp [AssocList.get, text])
      (by simp [AssocList.get, text])
  · obtain ⟨ms, hms, hl⟩ := map_ok_iff.mp h
    obtain rfl := Option.some.inj hl
    obtain ⟨ts, -, hms⟩ := except_bind_ok_iff.mp hms
    obtain ⟨price, -, hms⟩ := except_bind_ok_iff.mp hms
    obtain ⟨pnl, -, hms⟩ := except_bind_ok_iff.mp hms
    obtain ⟨pct, -, hms⟩ := except_bind_ok_iff.mp hms
    obtain ⟨hold, -, hms⟩ := except_bind_ok_iff.mp hms
    cases hms
    exact dumpTrade_for (t := .str (text "close")) (by simp [AssocList.get, text])
      (by simp [AssocList.get, text])
  · simp at h

lemma noteLine_note (seq : ℕ) (kind : Text) (payload : List (Text × Value)) :
    Json.Printable (noteLine seq kind payload) ∧ isRecord (noteLine seq kind payload) = false := by
  refine ⟨Json.printable_dumps _ _, ?_⟩
  have h : readRecord (Bytes.encode (noteLine seq kind payload)) = _ :=
    readRecord_encode (Json.loads_dumps _ _)
  rw [isRecord, exportedSeq, h]
  simp [recordGet, AssocList.get, text]

end Records

/-! ### The lines a target wants -/

def lineFor (conv : Conversions) : Target → Event → Except Text (Option Text)
  | .journal day, e => if e.day = day then (journalLine e).map some else .ok none
  | .trades, e => tradeLine conv e

/-- The line of a row in a target, with its seq. -/
def keyedLine (conv : Conversions) (t : Target) (e : Event) : Option (ℕ × Text) :=
  match lineFor conv t e with
  | .ok (some l) => some (e.seq, l)
  | _ => none

/-- The lines that the rows of a ledger have in a target. -/
def lines (conv : Conversions) (t : Target) (rows : List Event) : List (ℕ × Text) :=
  rows.filterMap (keyedLine conv t)

section Wanted

variable {t : Target} {rows : List Event} {w : ℕ × Text}

lemma keyedLine_some {e : Event} (h : keyedLine conv t e = some w) :
    w.1 = e.seq ∧ lineFor conv t e = .ok (some w.2) := by
  unfold keyedLine at h
  split at h
  · next l hl =>
    obtain rfl := Option.some.inj h
    exact ⟨rfl, hl⟩
  · simp at h

lemma keyedLine_of {e : Event} {l : Text} (h : lineFor conv t e = .ok (some l)) :
    keyedLine conv t e = some (e.seq, l) := by
  rw [keyedLine, h]

lemma line_for (h : w ∈ lines conv t rows) : LineFor w.1 w.2 := by
  obtain ⟨e, -, he⟩ := List.mem_filterMap.mp h
  obtain ⟨hseq, hline⟩ := keyedLine_some he
  rw [hseq]
  cases t with
  | journal day =>
    simp only [lineFor] at hline
    split_ifs at hline
    · obtain ⟨l, hl, hw⟩ := map_ok_iff.mp hline
      obtain rfl := Option.some.inj hw
      exact journalLine_for hl
    · simp at hline
  | trades => exact tradeLine_for hline

lemma lines_append (rows rows' : List Event) :
    lines conv t (rows ++ rows') = lines conv t rows ++ lines conv t rows' := by
  simp [lines]

/-- The rows after a cursor have the lines after it. -/
lemma lines_filter (c : ℕ) (rows : List Event) :
    lines conv t (rows.filter fun e => decide (c + 1 ≤ e.seq)) =
      (lines conv t rows).filter fun w => decide (c < w.1) := by
  induction rows with
  | nil => rfl
  | cons e rows ih =>
    have hkey : ∀ w, keyedLine conv t e = some w → w.1 = e.seq := fun w h => (keyedLine_some h).1
    unfold lines at ih ⊢
    by_cases he : c + 1 ≤ e.seq
    · rw [List.filter_cons_of_pos (by simpa using he)]
      rcases hk : keyedLine conv t e with - | w
      · rw [List.filterMap_cons_none hk, List.filterMap_cons_none hk, ih]
      · have hw := hkey w hk
        rw [List.filterMap_cons_some hk, List.filterMap_cons_some hk,
          List.filter_cons_of_pos (by simp only [decide_eq_true_eq]; omega), ih]
    · rw [List.filter_cons_of_neg (by simpa using he)]
      rcases hk : keyedLine conv t e with - | w
      · rw [List.filterMap_cons_none hk, ih]
      · have hw := hkey w hk
        rw [List.filterMap_cons_some hk,
          List.filter_cons_of_neg (by simp only [decide_eq_true_eq]; omega), ih]

lemma lines_sorted (h : rows.Pairwise fun a b => a.seq < b.seq) :
    (lines conv t rows).Pairwise fun a b => a.1 < b.1 := by
  refine List.Pairwise.filterMap _ ?_ h
  intro a a' haa b hb b' hb'
  rw [(keyedLine_some hb).1, (keyedLine_some hb').1]
  exact haa

end Wanted

/-! ### Batches -/

lemma tradeLines_ok {es : List Event} {ls : List (ℕ × Text)}
    (h : tradeLines conv es = .ok ls) :
    ls = lines conv .trades es ∧ ∀ e ∈ es, ∃ l, tradeLine conv e = .ok l := by
  induction es generalizing ls with
  | nil =>
    cases h
    exact ⟨rfl, by simp⟩
  | cons e es ih =>
    obtain ⟨l, hl, h⟩ := except_bind_ok_iff.mp h
    obtain ⟨rest, hrest, h⟩ := except_bind_ok_iff.mp h
    cases h
    obtain ⟨rfl, hes⟩ := ih hrest
    constructor
    · rcases l with - | l
      · have hk : keyedLine conv .trades e = none := by simp [keyedLine, lineFor, hl]
        unfold lines
        rw [List.filterMap_cons_none hk]
        rfl
      · unfold lines
        rw [List.filterMap_cons_some (keyedLine_of (t := .trades) hl)]
        rfl
    · intro a ha
      rcases List.mem_cons.mp ha with rfl | ha
      · exact ⟨l, hl⟩
      · exact hes a ha

lemma tradeLines_total {es : List Event} (h : ∀ e ∈ es, ∃ l, tradeLine conv e = .ok l) :
    ∃ ls, tradeLines conv es = .ok ls := by
  induction es with
  | nil => exact ⟨[], rfl⟩
  | cons e es ih =>
    obtain ⟨l, hl⟩ := h e (by simp)
    obtain ⟨rest, hrest⟩ := ih fun a ha => h a (by simp [ha])
    exact ⟨_, by rw [tradeLines, hl, hrest]; rfl⟩

/-- **The batches of the journal:** under each day, the lines of its rows. -/
lemma journalBatches_ok {es : List Event} (h : ∀ e ∈ es, ∃ l, journalLine e = .ok l) :
    ∃ bs, journalBatches es = .ok bs ∧
      ∀ d, (bs.get d).getD [] = lines conv (.journal d) es := by
  have haux : ∀ acc : Dict Text (List (ℕ × Text)),
      ∃ bs, es.foldlM (fun byDay e => do
          let line ← journalLine e
          .ok (byDay.set e.day ((byDay.get e.day).getD [] ++ [(e.seq, line)]))) acc = .ok bs ∧
      ∀ d, (bs.get d).getD [] = (acc.get d).getD [] ++ lines conv (.journal d) es := by
    induction es with
    | nil => exact fun acc => ⟨acc, rfl, by simp [lines]⟩
    | cons e es ih =>
      intro acc
      obtain ⟨l, hl⟩ := h e (by simp)
      obtain ⟨bs, hbs, hget⟩ := ih (fun a ha => h a (by simp [ha]))
        (acc.set e.day ((acc.get e.day).getD [] ++ [(e.seq, l)]))
      refine ⟨bs, ?_, fun d => ?_⟩
      · rw [List.foldlM_cons, hl]
        exact hbs
      · rw [hget d]
        by_cases hd : e.day = d
        · subst hd
          have hline : lineFor conv (.journal e.day) e = .ok (some l) := by
            rw [lineFor, if_pos rfl, hl]
            rfl
          rw [Dict.get_set_self, Option.getD_some, lines, lines,
            List.filterMap_cons_some (keyedLine_of hline), List.append_assoc]
          rfl
        · have hk : keyedLine conv (.journal d) e = none := by
            simp [keyedLine, lineFor, hd]
          rw [Dict.get_set_ne _ _ (Ne.symm hd), lines, lines, List.filterMap_cons_none hk]
  obtain ⟨bs, hbs, hget⟩ := haux ∅
  exact ⟨bs, hbs, fun d => by rw [hget d]; rfl⟩

/-! ### Effects -/

section Effects

variable {t : Target} {p : Process}

lemma setFile_file (d : Disk) (t u : Target) (data : Bytes) :
    (d.setFile t data).file u = if u = t then data else d.file u := by
  unfold Disk.setFile
  by_cases h : u = t
  · subst h
    simp
  · simp [h]

lemma setFile_setFile (d : Disk) (t : Target) (data data' : Bytes) :
    (d.setFile t data).setFile t data' = d.setFile t data' := by
  simp [Disk.setFile]

lemma setFile_self (d : Disk) (t : Target) : d.setFile t (d.file t) = d := by
  simp [Disk.setFile]

/-- An effect happens or the process dies before it. -/
lemma effect_run (f : Disk → Disk) (p : Process) :
    ((effect f p).1 = .ok () ∧ (effect f p).2.disk = f p.disk ∧
      (p.left = none → (effect f p).2.left = none)) ∨
    (effect f p = (.error .died, p) ∧ p.left ≠ none) := by
  unfold effect
  rcases h : p.left with - | - | n
  · exact .inl ⟨rfl, rfl, fun _ => rfl⟩
  · exact .inr ⟨rfl, by simp⟩
  · exact .inl ⟨rfl, rfl, by simp⟩

/-- What a program may have done to one file, and that it returns unless the process dies. -/
structure Wrote (t : Target) (p : Process) {α : Type} (out : Except Failure α × Process)
    (P : Bytes → Prop) (Q : α → Bytes → Prop) : Prop where
  disk : out.2.disk = p.disk.setFile t (out.2.disk.file t)
  holds : P (out.2.disk.file t)
  returns : ∀ a, out.1 = .ok a → Q a (out.2.disk.file t)
  alive : p.left = none → (∃ a, out.1 = .ok a) ∧ out.2.left = none

lemma write_run (t : Target) (bs : Bytes) (p : Process) :
    Wrote t p (write t bs p) (fun data => ∃ j, data = p.disk.file t ++ bs.take j)
      (fun _ data => data = p.disk.file t ++ bs) := by
  induction bs generalizing p with
  | nil =>
    refine ⟨(setFile_self _ _).symm, ⟨0, ?_⟩, fun _ _ => ?_, fun h => ⟨⟨(), rfl⟩, h⟩⟩
    · simp [write, Prog.pure_run]
    · simp [write, Prog.pure_run]
  | cons b bs ih =>
    rcases effect_run (fun d => d.setFile t (d.file t ++ [b])) p with
      ⟨hok, hdisk, hleft⟩ | ⟨hdied, hleft⟩
    · have hrun := Prog.bind_run_ok (f := fun _ => write t bs) (Prod.ext hok rfl)
      have h := ih (effect (fun d => d.setFile t (d.file t ++ [b])) p).2
      have hfile : (effect (fun d => d.setFile t (d.file t ++ [b])) p).2.disk.file t =
          p.disk.file t ++ [b] := by
        rw [hdisk, setFile_file, if_pos rfl]
      rw [write, hrun]
      refine ⟨?_, ?_, fun a ha => ?_, fun hp => h.alive (hleft hp)⟩
      · have := h.disk
        rw [hdisk, setFile_setFile] at this
        exact this
      · obtain ⟨j, hj⟩ := h.holds
        refine ⟨j + 1, ?_⟩
        rw [hj, hfile, List.take_succ_cons, List.append_assoc, List.singleton_append]
      · rw [h.returns a ha, hfile, List.append_assoc, List.singleton_append]
    · have hrun : write t (b :: bs) p = (.error .died, p) := Prog.bind_run_error hdied
      rw [hrun]
      refine ⟨(setFile_self _ _).symm, ⟨0, by simp⟩, by simp, fun h => absurd h hleft⟩

end Effects

/-! ### What a target holds -/

/-- Lines under distinct seqs in order, each a record of its seq. -/
structure Keyed (ws : List (ℕ × Text)) : Prop where
  sorted : ws.Pairwise fun a b => a.1 < b.1
  line : ∀ w ∈ ws, LineFor w.1 w.2

/-- A file with the first `m` of its lines, the tool's notes between them, and a fragment at the
end only while a line is missing. -/
def Holds (ws : List (ℕ × Text)) (m : ℕ) (file : Bytes) : Prop :=
  m ≤ ws.length ∧ ∃ (ls : List Text) (torn : Bytes),
    file = Bytes.joinLines (ls.map Bytes.encode) ++ torn ∧ Bytes.newline ∉ torn ∧
    (torn ≠ [] → m < ws.length) ∧ (∀ l ∈ ls, Json.Printable l) ∧
    ls.filter isRecord = (ws.take m).map Prod.snd

section Holds

variable {ws : List (ℕ × Text)} {m : ℕ} {ls : List Text} {file : Bytes}

lemma Keyed.isRecord (hw : Keyed ws) {l : Text} (h : l ∈ ws.map Prod.snd) : isRecord l = true := by
  obtain ⟨w, hmem, rfl⟩ := List.mem_map.mp h
  simp [Export.isRecord, (hw.line w hmem).seq]

lemma Keyed.filterMap_seq (hw : Keyed ws) :
    (ws.map Prod.snd).filterMap (fun l => exportedSeq (Bytes.encode l)) =
      ws.map fun w => (w.1 : ℤ) := by
  rw [List.filterMap_map, ← List.filterMap_eq_map]
  exact List.filterMap_congr fun w h => (hw.line w h).seq

lemma Keyed.sublist (hw : Keyed ws) {vs : List (ℕ × Text)} (h : vs.Sublist ws) : Keyed vs :=
  ⟨hw.sorted.sublist h, fun w hmem => hw.line w (h.subset hmem)⟩

lemma lines_of_printable (h : ∀ l ∈ ls, Json.Printable l) :
    Bytes.splitlines (Bytes.joinLines (ls.map Bytes.encode)) = ls.map Bytes.encode := by
  refine Bytes.splitlines_joinLines fun x hx => ?_
  obtain ⟨l, hl, rfl⟩ := List.mem_map.mp hx
  exact Bytes.encode_line (h l hl)

lemma filterMap_filter_isRecord (ls : List Text) :
    (ls.filter isRecord).filterMap (fun l => exportedSeq (Bytes.encode l)) =
      ls.filterMap fun l => exportedSeq (Bytes.encode l) := by
  rw [List.filterMap_filter]
  refine List.filterMap_congr fun l _ => ?_
  rcases h : exportedSeq (Bytes.encode l) with - | n <;> simp [isRecord, h]

/-- The seqs that a file has are those of its first lines. -/
lemma exportedSeqs_lines (hw : Keyed ws) (hp : ∀ l ∈ ls, Json.Printable l)
    (hrec : ls.filter isRecord = (ws.take m).map Prod.snd) :
    exportedSeqs (Bytes.joinLines (ls.map Bytes.encode)) =
      (ws.take m).map fun w => (w.1 : ℤ) := by
  rw [exportedSeqs, lines_of_printable hp, List.filterMap_map]
  have h := filterMap_filter_isRecord ls
  rw [hrec, (hw.sublist (List.take_sublist m ws)).filterMap_seq] at h
  exact h.symm

/-- What is missing of the lines after a cursor is what comes after the first `m`. -/
lemma missing_eq_drop (hw : Keyed ws) {c : ℕ} (hc : ∀ w ∈ ws.drop m, c < w.1) :
    (ws.filter fun w => decide (c < w.1)).filter (fun w => decide ((w.1 : ℤ) ∉
      (ws.take m).map fun w => (w.1 : ℤ))) = ws.drop m := by
  have hsplit := List.take_append_drop m ws
  have hlt : ∀ v ∈ ws.take m, ∀ w ∈ ws.drop m, v.1 < w.1 := by
    have := hw.sorted
    rw [← hsplit, List.pairwise_append] at this
    exact this.2.2
  have htake : (ws.take m).filter (fun w => decide ((w.1 : ℤ) ∉
      (ws.take m).map fun w => (w.1 : ℤ)) && decide (c < w.1)) = [] := by
    rw [List.filter_eq_nil_iff]
    intro w hmem
    have : (w.1 : ℤ) ∈ (ws.take m).map fun w => (w.1 : ℤ) := List.mem_map.mpr ⟨w, hmem, rfl⟩
    simp only [this, not_true_eq_false, decide_false, Bool.false_and, Bool.false_eq_true,
      not_false_eq_true]
  have hdrop : (ws.drop m).filter (fun w => decide ((w.1 : ℤ) ∉
      (ws.take m).map fun w => (w.1 : ℤ)) && decide (c < w.1)) = ws.drop m := by
    rw [List.filter_eq_self]
    intro w hmem
    have hnot : (w.1 : ℤ) ∉ (ws.take m).map fun w => (w.1 : ℤ) := by
      intro h
      obtain ⟨v, hv, hvw⟩ := List.mem_map.mp h
      have := hlt v hv w hmem
      omega
    simp only [hnot, not_false_eq_true, decide_true, Bool.true_and, decide_eq_true_eq]
    exact hc w hmem
  rw [List.filter_filter]
  conv_lhs => rw [← hsplit, List.filter_append, hsplit, htake, hdrop]
  rfl

/-- The encoded lines that are missing. -/
def missing (ws : List (ℕ × Text)) (m : ℕ) : List Bytes :=
  ((ws.drop m).map Prod.snd).map Bytes.encode

lemma missing_line (hw : Keyed ws) : ∀ x ∈ missing ws m, Bytes.Line x := by
  intro x hx
  obtain ⟨l, hl, rfl⟩ := List.mem_map.mp hx
  obtain ⟨w, hmem, rfl⟩ := List.mem_map.mp hl
  exact Bytes.encode_line (hw.line w (List.mem_of_mem_drop hmem)).printable

/-- Some of the missing lines come after the lines of a file. -/
lemma holds_append (hw : Keyed ws) (hp : ∀ l ∈ ls, Json.Printable l)
    (hrec : ls.filter isRecord = (ws.take m).map Prod.snd) {k : ℕ} {torn : Bytes}
    (htorn : Bytes.newline ∉ torn) (hk : torn ≠ [] → m + k < ws.length) :
    Holds ws (min (m + k) ws.length) (Bytes.joinLines (ls.map Bytes.encode) ++
      (Bytes.joinLines ((missing ws m).take k) ++ torn)) := by
  have hsub : ∀ l ∈ ((ws.drop m).map Prod.snd).take k, l ∈ ws.map Prod.snd := by
    intro l hl
    obtain ⟨w, hmem, rfl⟩ := List.mem_map.mp (List.mem_of_mem_take hl)
    exact List.mem_map.mpr ⟨w, List.mem_of_mem_drop hmem, rfl⟩
  refine ⟨by omega, ls ++ ((ws.drop m).map Prod.snd).take k, torn, ?_, htorn, ?_, ?_, ?_⟩
  · rw [missing, List.map_append, Bytes.joinLines_append, List.map_take, List.append_assoc]
  · intro h
    have := hk h
    omega
  · intro l hl
    rcases List.mem_append.mp hl with hl | hl
    · exact hp l hl
    · obtain ⟨w, hmem, rfl⟩ := List.mem_map.mp (hsub l hl)
      exact (hw.line w hmem).printable
  · have hall : (((ws.drop m).map Prod.snd).take k).filter isRecord =
        ((ws.drop m).map Prod.snd).take k :=
      List.filter_eq_self.mpr fun l hl => hw.isRecord (hsub l hl)
    have hmin : ws.take (min (m + k) ws.length) = ws.take m ++ (ws.drop m).take k := by
      rw [← List.take_take, List.take_length, List.take_add]
    rw [List.filter_append, hrec, hall, hmin, List.map_append, List.map_take, List.map_take]

/-- A write of the missing lines that stopped somewhere. -/
lemma holds_written (hm : m ≤ ws.length) (hw : Keyed ws) (hp : ∀ l ∈ ls, Json.Printable l)
    (hrec : ls.filter isRecord = (ws.take m).map Prod.snd) (j : ℕ) :
    ∃ k, m ≤ k ∧ Holds ws k (Bytes.joinLines (ls.map Bytes.encode) ++
      (Bytes.joinLines (missing ws m)).take j) := by
  obtain ⟨k, torn, htake, htorn, hk, -⟩ := Bytes.take_joinLines (missing_line (m := m) hw) j
  rw [htake]
  refine ⟨_, ?_, holds_append hw hp hrec htorn fun h => ?_⟩
  · omega
  · have := hk h
    simp only [missing, List.length_map, List.length_drop] at this
    omega

/-- A write of all missing lines. -/
lemma holds_whole (hw : Keyed ws) (hp : ∀ l ∈ ls, Json.Printable l)
    (hrec : ls.filter isRecord = (ws.take m).map Prod.snd) :
    Holds ws ws.length (Bytes.joinLines (ls.map Bytes.encode) ++
      Bytes.joinLines (missing ws m)) := by
  have h : Holds ws (min (m + ws.length) ws.length) (Bytes.joinLines (ls.map Bytes.encode) ++
      (Bytes.joinLines ((missing ws m).take ws.length) ++ [])) :=
    holds_append hw hp hrec (by simp) (by simp)
  have hmin : min (m + ws.length) ws.length = ws.length := by omega
  have htake : (missing ws m).take ws.length = missing ws m := by
    refine List.take_of_length_le ?_
    simp [missing]
  rwa [hmin, htake, List.append_nil] at h

/-- A file cut back to its last newline. -/
lemma cutTorn_run {torn : Bytes} (ht : Bytes.newline ∉ torn) (p : Process) (t : Target)
    (hfile : p.disk.file t = Bytes.joinLines (ls.map Bytes.encode) ++ torn) :
    Wrote t p (cutTorn t (Bytes.complete (p.disk.file t)) (p.disk.file t) p)
      (fun data => data = p.disk.file t ∨ data = Bytes.joinLines (ls.map Bytes.encode))
      (fun _ data => data = Bytes.joinLines (ls.map Bytes.encode)) := by
  have hcomplete : Bytes.complete (p.disk.file t) = Bytes.joinLines (ls.map Bytes.encode) := by
    rw [hfile, Bytes.complete_joinLines_torn ht]
  rw [hcomplete, cutTorn]
  split_ifs with hlen
  · rcases effect_run (fun d => d.setFile t
        ((d.file t).take (Bytes.joinLines (ls.map Bytes.encode)).length)) p with
      ⟨hok, hdisk, hleft⟩ | ⟨hdied, hleft⟩
    · have hdata : (p.disk.file t).take (Bytes.joinLines (ls.map Bytes.encode)).length =
          Bytes.joinLines (ls.map Bytes.encode) := by
        rw [hfile, List.take_left]
      rw [hdata] at hdisk
      have hat : (truncate t (Bytes.joinLines (ls.map Bytes.encode)).length p).2.disk.file t =
          Bytes.joinLines (ls.map Bytes.encode) := by
        rw [truncate, hdisk, setFile_file, if_pos rfl]
      refine ⟨?_, .inr hat, fun _ _ => hat, fun h => ⟨⟨(), hok⟩, hleft h⟩⟩
      rw [hat]
      exact hdisk
    · rw [truncate, hdied]
      exact ⟨(setFile_self _ _).symm, .inl rfl, by simp, fun h => absurd h hleft⟩
  · have hnil : torn = [] := by
      rw [hfile, List.length_append] at hlen
      have hzero : torn.length = 0 := by omega
      exact List.length_eq_zero_iff.mp hzero
    rw [hnil, List.append_nil] at hfile
    exact ⟨(setFile_self _ _).symm, .inl rfl, fun _ _ => hfile, fun h => ⟨⟨(), rfl⟩, h⟩⟩

/-- Cut the file, then write lines after it. -/
lemma cutAndWrite_run {torn : Bytes} (ht : Bytes.newline ∉ torn) (p : Process) (t : Target)
    (hfile : p.disk.file t = Bytes.joinLines (ls.map Bytes.encode) ++ torn) (bs : Bytes) :
    Wrote t p ((cutTorn t (Bytes.complete (p.disk.file t)) (p.disk.file t) >>=
        fun _ => write t bs) p)
      (fun data => data = p.disk.file t ∨
        ∃ j, data = Bytes.joinLines (ls.map Bytes.encode) ++ bs.take j)
      (fun _ data => data = Bytes.joinLines (ls.map Bytes.encode) ++ bs) := by
  have hcut := cutTorn_run ht p t hfile
  rcases hrun : cutTorn t (Bytes.complete (p.disk.file t)) (p.disk.file t) p with ⟨e | u, q⟩
  · rw [hrun] at hcut
    rw [Prog.bind_run_error hrun]
    refine ⟨hcut.disk, ?_, by simp, fun h => absurd (hcut.alive h).1 (by simp)⟩
    rcases hcut.holds with h | h
    · exact .inl h
    · exact .inr ⟨0, by simpa using h⟩
  · rw [hrun] at hcut
    rw [Prog.bind_run_ok hrun]
    have hq : q.disk.file t = Bytes.joinLines (ls.map Bytes.encode) := hcut.returns u rfl
    have hwrite := write_run t bs q
    rw [hq] at hwrite
    refine ⟨?_, .inr hwrite.holds, hwrite.returns, fun h => hwrite.alive (hcut.alive h).2⟩
    rw [hwrite.disk, hcut.disk, setFile_setFile, setFile_file, if_pos rfl]

/-- **What `_append_missing` does:** whenever it stops, the file holds at least as many of its
lines as before, and all of them when it returns. -/
theorem appendMissing_run (hw : Keyed ws) {t : Target} {p : Process} {c : ℕ}
    (hh : Holds ws m (p.disk.file t)) (hc : ∀ w ∈ ws.drop m, c < w.1) :
    Wrote t p (appendMissing t (ws.filter fun w => decide (c < w.1)) p)
      (fun data => ∃ k, m ≤ k ∧ Holds ws k data)
      (fun _ data => Holds ws ws.length data) := by
  have hstay : m = ws.length → Wrote t p ((.ok 0, p) : Except Failure ℕ × Process)
      (fun data => ∃ k, m ≤ k ∧ Holds ws k data) (fun _ data => Holds ws ws.length data) :=
    fun hm => ⟨(setFile_self _ _).symm, ⟨m, le_rfl, hh⟩, fun _ _ => hm ▸ hh,
      fun h => ⟨⟨0, rfl⟩, h⟩⟩
  obtain ⟨hm, ls, torn, hfile, htorn, -, hp, hrec⟩ := id hh
  have hcomplete : Bytes.complete (p.disk.file t) = Bytes.joinLines (ls.map Bytes.encode) := by
    rw [hfile, Bytes.complete_joinLines_torn htorn]
  have hfresh : ((ws.filter fun w => decide (c < w.1)).filter fun r => decide ((r.1 : ℤ) ∉
      exportedSeqs (Bytes.complete (p.disk.file t)))).map Prod.snd = (ws.drop m).map Prod.snd := by
    rw [hcomplete, exportedSeqs_lines hw hp hrec, missing_eq_drop hw hc]
  unfold appendMissing
  split_ifs with hrows
  · refine hstay ?_
    have hnone : ws.drop m = [] := by
      rw [← missing_eq_drop hw hc, hrows, List.filter_nil]
    have := List.drop_eq_nil_iff.mp hnone
    omega
  · rw [Prog.bind_run_ok (Prog.read_run _ p)]
    simp only [hfresh]
    split_ifs with hnil
    · refine hstay ?_
      have := List.drop_eq_nil_iff.mp (List.map_eq_nil_iff.mp hnil)
      omega
    · have hwrote := cutAndWrite_run htorn p t hfile
        (Bytes.joinLines (missing ws m))
      have hpart : ∀ data, (data = p.disk.file t ∨ ∃ j, data =
          Bytes.joinLines (ls.map Bytes.encode) ++ (Bytes.joinLines (missing ws m)).take j) →
          ∃ k, m ≤ k ∧ Holds ws k data := by
        rintro data (rfl | ⟨j, rfl⟩)
        · exact ⟨m, le_rfl, hh⟩
        · exact holds_written hm hw hp hrec j
      have henc : ((ws.drop m).map Prod.snd).map Bytes.encode = missing ws m := rfl
      rw [henc, ← Prog.bind_assoc]
      rcases hrun : (cutTorn t (Bytes.complete (p.disk.file t)) (p.disk.file t) >>= fun _ =>
          write t (Bytes.joinLines (missing ws m))) p with ⟨e | u, q⟩
      · rw [hrun] at hwrote
        rw [Prog.bind_run_error hrun]
        exact ⟨hwrote.disk, hpart _ hwrote.holds, by simp,
          fun h => absurd (hwrote.alive h).1 (by simp)⟩
      · rw [hrun] at hwrote
        rw [Prog.bind_run_ok hrun]
        refine ⟨hwrote.disk, hpart _ hwrote.holds, fun _ _ => ?_,
          fun h => ⟨⟨_, rfl⟩, (hwrote.alive h).2⟩⟩
        have hdata := hwrote.returns u rfl
        rw [Prog.pure_run, hdata]
        exact holds_whole hw hp hrec

lemma recordSeq_of_exportedSeq {raw : Bytes} {n : ℤ} (h : exportedSeq raw = some n) :
    recordSeq raw = some n := by
  simp only [exportedSeq, recordSeq, Option.bind_eq_bind, Option.bind_eq_some_iff] at h ⊢
  obtain ⟨record, hrecord, -, -, seq, hseq, hn⟩ := h
  exact ⟨record, hrecord, seq, hseq, hn⟩

/-- A seq that a file has no record of is still missing. -/
lemma missing_of_not_hasSeq (hw : Keyed ws) (hm : m ≤ ws.length)
    (hp : ∀ l ∈ ls, Json.Printable l) (hrec : ls.filter isRecord = (ws.take m).map Prod.snd)
    {w : ℕ × Text} (hmem : w ∈ ws)
    (h : ¬ hasSeq (Bytes.joinLines (ls.map Bytes.encode)) w.1 = true) : m < ws.length := by
  by_contra hle
  have htake : ws.take m = ws := List.take_of_length_le (by omega)
  have hl : w.2 ∈ ls.filter isRecord := by
    rw [hrec, htake]
    exact List.mem_map.mpr ⟨w, hmem, rfl⟩
  refine h ?_
  rw [hasSeq, lines_of_printable hp, List.any_eq_true]
  refine ⟨Bytes.encode w.2, List.mem_map.mpr ⟨w.2, List.mem_of_mem_filter hl, rfl⟩, ?_⟩
  simpa using recordSeq_of_exportedSeq (hw.line w hmem).seq

/-- **The tool's line** takes no line of the exporter away and adds none. -/
theorem exportLine_run (hw : Keyed ws) {day : Text} {p : Process} {l : Text} {w : ℕ × Text}
    (hh : Holds ws m (p.disk.file (.journal day))) (hmem : w ∈ ws) (hl : Json.Printable l)
    (hnote : isRecord l = false) :
    Wrote (.journal day) p (exportLine day w.1 l p) (fun data => Holds ws m data)
      (fun _ _ => True) := by
  obtain ⟨hm, ls, torn, hfile, htorn, -, hp, hrec⟩ := id hh
  have hcomplete : Bytes.complete (p.disk.file (.journal day)) =
      Bytes.joinLines (ls.map Bytes.encode) := by
    rw [hfile, Bytes.complete_joinLines_torn htorn]
  unfold exportLine
  rw [Prog.bind_run_ok (Prog.read_run _ p)]
  split_ifs with hseq
  · exact ⟨(setFile_self _ _).symm, hh, fun _ _ => trivial, fun h => ⟨⟨(), rfl⟩, h⟩⟩
  · rw [hcomplete] at hseq
    have hlt := missing_of_not_hasSeq hw hm hp hrec hmem hseq
    have hwrote := cutAndWrite_run htorn p (.journal day) hfile (Bytes.encode l ++ [Bytes.newline])
    refine ⟨hwrote.disk, ?_, fun _ _ => trivial, hwrote.alive⟩
    rcases hwrote.holds with h | ⟨j, h⟩
    · rw [h]
      exact hh
    · have hjoin : Bytes.encode l ++ [Bytes.newline] = Bytes.joinLines [Bytes.encode l] := by
        simp [Bytes.joinLines]
      have hline : ∀ x ∈ [Bytes.encode l], Bytes.Line x := by
        simpa using Bytes.encode_line hl
      obtain ⟨k, torn', htake, htorn', -, -⟩ := Bytes.take_joinLines hline j
      refine ⟨hm, ls ++ [l].take k, torn', ?_, htorn', fun _ => hlt, ?_, ?_⟩
      · rw [h, hjoin, htake, List.map_append, Bytes.joinLines_append, List.map_take,
          List.append_assoc]
        rfl
      · intro x hx
        rcases List.mem_append.mp hx with hx | hx
        · exact hp x hx
        · obtain rfl := List.mem_singleton.mp (List.mem_of_mem_take hx)
          exact hl
      · have hnone : ([l].take k).filter isRecord = [] := by
          rw [List.filter_eq_nil_iff]
          intro x hx
          obtain rfl := List.mem_singleton.mp (List.mem_of_mem_take hx)
          simp [hnote]
        rw [List.filter_append, hnone, List.append_nil, hrec]

end Holds

/-! ### One export -/

section OneExport

variable {rows : List Event}

lemma keyed_lines (h : rows.Pairwise fun a b => a.seq < b.seq) (t : Target) :
    Keyed (lines conv t rows) := ⟨lines_sorted h, fun _ hw => line_for hw⟩

/-- Every target holds some of its lines, and nothing before the cursor is missing. -/
def Held (conv : Conversions) (rows : List Event) (d : Disk) : Prop :=
  ∀ t, ∃ m, Holds (lines conv t rows) m (d.file t) ∧
    ∀ w ∈ (lines conv t rows).drop m, d.cursor < w.1

/-- A target has all its lines. -/
def Complete (conv : Conversions) (rows : List Event) (d : Disk) (t : Target) : Prop :=
  Holds (lines conv t rows) (lines conv t rows).length (d.file t)

/-- A part of an export, as a step on all targets: what they hold is kept, what is complete stays
complete, and `D` is complete when it returns. -/
structure Advances (conv : Conversions) (rows : List Event) (p : Process) {α : Type}
    (out : Except Failure α × Process) (D : Target → Prop) : Prop where
  held : Held conv rows out.2.disk
  cursor : out.2.disk.cursor = p.disk.cursor
  complete : ∀ t, Complete conv rows p.disk t → Complete conv rows out.2.disk t
  done : ∀ a, out.1 = .ok a → ∀ t, D t → Complete conv rows out.2.disk t
  alive : p.left = none → (∃ a, out.1 = .ok a) ∧ out.2.left = none

lemma appendMissing_advances (hs : rows.Pairwise fun a b => a.seq < b.seq) {p : Process}
    (h : Held conv rows p.disk) (t : Target) :
    Advances conv rows p
      (appendMissing t ((lines conv t rows).filter fun w => decide (p.disk.cursor < w.1)) p)
      (fun u => u = t) := by
  set out := appendMissing t ((lines conv t rows).filter fun w => decide (p.disk.cursor < w.1)) p
    with hout
  have hw : Keyed (lines conv t rows) := keyed_lines hs t
  obtain ⟨m, hm, hc⟩ := h t
  have hwrote := appendMissing_run hw hm hc
  have hcursor : out.2.disk.cursor = p.disk.cursor := by
    rw [hwrote.disk]
    rfl
  have hother : ∀ u, u ≠ t → out.2.disk.file u = p.disk.file u := by
    intro u hu
    rw [hwrote.disk, setFile_file, if_neg hu]
  refine ⟨fun u => ?_, hcursor, fun u hu => ?_, ?_, hwrote.alive⟩
  · by_cases hut : u = t
    · subst hut
      obtain ⟨k, hmk, hk⟩ := hwrote.holds
      refine ⟨k, hk, fun w hmem => ?_⟩
      rw [hcursor]
      have hdrop := List.drop_subset_drop_left (lines conv u rows) hmk
      exact hc w (hdrop hmem)
    · obtain ⟨k, hk, hkc⟩ := h u
      refine ⟨k, ?_, ?_⟩
      · rw [hother u hut]
        exact hk
      · rw [hcursor]
        exact hkc
  · by_cases hut : u = t
    · subst hut
      obtain ⟨k, hle, hk⟩ := (appendMissing_run hw hu (c := p.disk.cursor) (by simp)).holds
      have hlen : k = (lines conv u rows).length := le_antisymm hk.1 hle
      rw [hlen] at hk
      exact hk
    · unfold Complete
      rw [hother u hut]
      exact hu
  · rintro n hn u rfl
    exact hwrote.returns n hn

lemma appendBatches_advances (hs : rows.Pairwise fun a b => a.seq < b.seq) {c : ℕ}
    {bs : List (Text × List (ℕ × Text))}
    (hbs : ∀ b ∈ bs, b.2 = (lines conv (.journal b.1) rows).filter fun w => decide (c < w.1))
    {p : Process} (h : Held conv rows p.disk) (hc : p.disk.cursor = c) :
    Advances conv rows p (appendBatches bs p) (fun t => ∃ b ∈ bs, t = .journal b.1) := by
  induction bs generalizing p with
  | nil =>
    exact ⟨h, rfl, fun _ ht => ht, by simp, fun hp => ⟨⟨0, rfl⟩, hp⟩⟩
  | cons b bs ih =>
    obtain ⟨day, ls⟩ := b
    have hls : ls = _ := hbs (day, ls) (by simp)
    have hone := appendMissing_advances hs h (.journal day)
    rw [hc, ← hls] at hone
    rcases hrun : appendMissing (.journal day) ls p with ⟨e | n, q⟩
    · rw [hrun] at hone
      have hall : appendBatches ((day, ls) :: bs) p = (.error e, q) := Prog.bind_run_error hrun
      rw [hall]
      exact ⟨hone.held, hone.cursor, hone.complete, by simp,
        fun hp => absurd (hone.alive hp).1 (by simp)⟩
    · rw [hrun] at hone
      have hrest := ih (fun b hb => hbs b (by simp [hb])) hone.held (hone.cursor.trans hc)
      have hall : appendBatches ((day, ls) :: bs) p =
          (appendBatches bs >>= fun m => pure (n + m)) q := Prog.bind_run_ok hrun
      rw [hall]
      rcases hrun' : appendBatches bs q with ⟨e | m, q'⟩
      · rw [hrun'] at hrest
        rw [Prog.bind_run_error hrun']
        exact ⟨hrest.held, hrest.cursor.trans hone.cursor,
          fun t ht => hrest.complete t (hone.complete t ht), by simp,
          fun hp => absurd (hrest.alive (hone.alive hp).2).1 (by simp)⟩
      · rw [hrun'] at hrest
        rw [Prog.bind_run_ok hrun']
        refine ⟨hrest.held, hrest.cursor.trans hone.cursor,
          fun t ht => hrest.complete t (hone.complete t ht), ?_,
          fun hp => ⟨⟨_, rfl⟩, (hrest.alive (hone.alive hp).2).2⟩⟩
        rintro - - t ⟨b, hb, rfl⟩
        rcases List.mem_cons.mp hb with rfl | hb
        · exact hrest.complete _ (hone.done n rfl _ rfl)
        · exact hrest.done m rfl _ ⟨b, hb, rfl⟩

/-- A target with no line after the cursor is complete. -/
lemma complete_of_none {d : Disk} (h : Held conv rows d) {t : Target}
    (hnone : ((lines conv t rows).filter fun w => decide (d.cursor < w.1)) = []) :
    Complete conv rows d t := by
  obtain ⟨m, hm, hc⟩ := h t
  have hdrop : (lines conv t rows).drop m = [] := by
    rw [List.eq_nil_iff_forall_not_mem]
    intro w hmem
    have := List.filter_eq_nil_iff.mp hnone w (List.mem_of_mem_drop hmem)
    exact this (by simpa using hc w hmem)
  have hlen : m = (lines conv t rows).length := le_antisymm hm.1 (List.drop_eq_nil_iff.mp hdrop)
  rw [hlen] at hm
  exact hm

/-- **What one export does.** Whenever it stops, every target holds at least what it held. When it
returns, every target is complete, the trade line of every row after the old cursor was built, and
the cursor is at the last row. It returns unless the process dies or a trade line cannot be
built. -/
structure OneExport (conv : Conversions) (rows : List Event) (p : Process)
    (out : Except Failure Exported × Process) : Prop where
  held : Held conv rows out.2.disk
  stays : (∀ x, out.1 ≠ .ok x) → out.2.disk.cursor = p.disk.cursor
  complete : ∀ x, out.1 = .ok x → ∀ t, Complete conv rows out.2.disk t
  moves : ∀ x, out.1 = .ok x → ∀ e ∈ rows, p.disk.cursor < e.seq →
    e.seq ≤ out.2.disk.cursor ∧ ∃ l, tradeLine conv e = .ok l
  bounded : out.2.disk.cursor = p.disk.cursor ∨ ∃ e ∈ rows, out.2.disk.cursor = e.seq
  alive : p.left = none → (∀ e ∈ rows, ∃ l, tradeLine conv e = .ok l) → ∃ x, out.1 = .ok x

/-- Complete targets hold what they hold under any cursor. -/
lemma held_of_complete {d : Disk} (h : ∀ t, Complete conv rows d t) : Held conv rows d :=
  fun t => ⟨_, h t, by simp⟩

/-- The cursor moves to the last row, once every target is complete. -/
lemma finish_run {c : ℕ} {x : Exported} {p q : Process}
    (hs : rows.Pairwise fun a b => a.seq < b.seq)
    (hcursor : q.disk.cursor = p.disk.cursor) (hc : c = p.disk.cursor)
    (hall : ∀ t, Complete conv rows q.disk t)
    (htrade : ∀ e ∈ rows, p.disk.cursor < e.seq → ∃ l, tradeLine conv e = .ok l)
    (halive : p.left = none → q.left = none) :
    OneExport conv rows p (finish (rows.filter fun e => decide (c + 1 ≤ e.seq)) x q) := by
  subst hc
  rcases hlast : (rows.filter fun e => decide (p.disk.cursor + 1 ≤ e.seq)).getLast? with - | e
  · have hnone := List.getLast?_eq_none_iff.mp hlast
    have hrun : finish (rows.filter fun e => decide (p.disk.cursor + 1 ≤ e.seq)) x q =
        (.ok x, q) := by
      rw [hnone]
      rfl
    rw [hrun]
    refine ⟨held_of_complete hall, fun _ => hcursor, fun _ _ => hall, fun _ _ a ha hlt => ?_,
      .inl hcursor, fun _ _ => ⟨_, rfl⟩⟩
    have := List.filter_eq_nil_iff.mp hnone a ha
    simp only [decide_eq_true_eq] at this
    omega
  · have hmem : e ∈ rows.filter fun e => decide (p.disk.cursor + 1 ≤ e.seq) :=
      List.mem_of_getLast? hlast
    have he : e ∈ rows := List.mem_of_mem_filter hmem
    have hle : ∀ a ∈ rows, p.disk.cursor < a.seq → a.seq ≤ e.seq := by
      intro a ha hlt
      have hain : a ∈ rows.filter fun e => decide (p.disk.cursor + 1 ≤ e.seq) :=
        List.mem_filter.mpr ⟨ha, by simpa using hlt⟩
      obtain ⟨front, hfront⟩ := List.getLast?_eq_some_iff.mp hlast
      have hsorted := hs.filter fun e => decide (p.disk.cursor + 1 ≤ e.seq)
      rw [hfront] at hsorted hain
      rcases List.mem_append.mp hain with hain | hain
      · exact ((List.pairwise_append.mp hsorted).2.2 a hain e (by simp)).le
      · rw [List.mem_singleton.mp hain]
    have hrun : finish (rows.filter fun e => decide (p.disk.cursor + 1 ≤ e.seq)) x q =
        (effect (fun d : Disk => { d with cursor := e.seq }) >>=
          fun _ => pure { x with exportSeq := e.seq }) q := by
      unfold finish
      rw [hlast]
    rw [hrun]
    rcases effect_run (fun d : Disk => { d with cursor := e.seq }) q with
      ⟨hok, hdisk, -⟩ | ⟨hdied, hleft⟩
    · rw [Prog.bind_run_ok (Prod.ext hok rfl), Prog.pure_run]
      have hall' : ∀ t, Complete conv rows
          (effect (fun d : Disk => { d with cursor := e.seq }) q).2.disk t := by
        intro t
        rw [hdisk]
        exact hall t
      refine ⟨held_of_complete hall', fun h => absurd rfl (h _), fun _ _ => hall',
        fun _ _ a ha hlt => ⟨?_, htrade a ha hlt⟩, .inr ⟨e, he, ?_⟩, fun _ _ => ⟨_, rfl⟩⟩
      · rw [hdisk]
        exact hle a ha hlt
      · rw [hdisk]
    · rw [Prog.bind_run_error hdied]
      exact ⟨held_of_complete hall, fun _ => hcursor, by simp, by simp, .inl hcursor,
        fun hp => absurd (halive hp) hleft⟩

theorem exportLedger_run (hs : rows.Pairwise fun a b => a.seq < b.seq)
    (hl : ∀ e ∈ rows, ∃ l, journalLine e = .ok l) {p : Process} (h : Held conv rows p.disk) :
    OneExport conv rows p (exportLedger conv rows p) := by
  set c := p.disk.cursor with hc
  set events := rows.filter fun e => decide (c + 1 ≤ e.seq) with hevents
  obtain ⟨bs, hbs, hget⟩ : ∃ bs, journalBatches events = .ok bs ∧
      ∀ d, (bs.get d).getD [] = lines conv (.journal d) events :=
    journalBatches_ok fun e he => hl e (List.mem_of_mem_filter he)
  have hfilter : ∀ t, lines conv t events =
      (lines conv t rows).filter fun w => decide (c < w.1) := fun t => lines_filter c rows
  have hdays : ∀ b ∈ sortedDays bs,
      b.2 = (lines conv (.journal b.1) rows).filter fun w => decide (c < w.1) := by
    intro b hb
    have hmem : b ∈ bs.entries := (List.mergeSort_perm _ _).mem_iff.mp hb
    have hsome := (bs.mem_entries_iff b.1 b.2).mp hmem
    rw [← hfilter, ← hget b.1, hsome, Option.getD_some]
  have hstart : exportLedger conv rows p = (appendBatches (sortedDays bs) >>= fun n =>
      raising (tradeLines conv events) >>= fun ls => appendMissing .trades ls >>= fun m =>
        finish events ⟨n, m, c⟩) p := by
    unfold exportLedger
    rw [Prog.bind_run_ok (Prog.read_run _ p)]
    refine Prog.bind_run_ok ?_
    rw [hbs]
    rfl
  rw [hstart]
  have hbatches := appendBatches_advances hs hdays h rfl
  rcases hrun : appendBatches (sortedDays bs) p with ⟨e | n, q⟩
  · rw [hrun] at hbatches
    rw [Prog.bind_run_error hrun]
    exact ⟨hbatches.held, fun _ => hbatches.cursor, by simp, by simp, .inl hbatches.cursor,
      fun hp => absurd (hbatches.alive hp).1 (by simp)⟩
  · rw [hrun] at hbatches
    rw [Prog.bind_run_ok hrun]
    have hjournal : ∀ day, Complete conv rows q.disk (.journal day) := by
      intro day
      rcases hday : bs.get day with - | ls
      · refine complete_of_none hbatches.held ?_
        have hnone := hget day
        rw [hday, hfilter] at hnone
        rw [hbatches.cursor]
        exact hnone.symm
      · have hmem : (day, ls) ∈ sortedDays bs :=
          (List.mergeSort_perm _ _).mem_iff.mpr ((bs.mem_entries_iff day ls).mpr hday)
        exact hbatches.done n rfl _ ⟨(day, ls), hmem, rfl⟩
    rcases hlines : tradeLines conv events with e | ls
    · -- a trade line cannot be built: the journal is complete, the cursor stays
      have hraise : (raising (.error e : Except Text (List (ℕ × Text)))) q =
          (.error (.raised e), q) := rfl
      rw [Prog.bind_run_error hraise]
      refine ⟨hbatches.held, fun _ => hbatches.cursor, by simp, by simp, .inl hbatches.cursor,
        fun _ hok => ?_⟩
      obtain ⟨ls, hls⟩ : ∃ ls, tradeLines conv events = .ok ls :=
        tradeLines_total fun e he => hok e (List.mem_of_mem_filter he)
      rw [hlines] at hls
      exact absurd hls (by simp)
    · obtain ⟨rfl, htrade⟩ := tradeLines_ok hlines
      have hraise : (raising (.ok (lines conv .trades events))) q =
          (.ok (lines conv .trades events), q) := rfl
      rw [Prog.bind_run_ok hraise, hfilter]
      have htrades := appendMissing_advances hs hbatches.held .trades
      rw [hbatches.cursor] at htrades
      rcases hrun' : appendMissing .trades ((lines conv .trades rows).filter fun w =>
          decide (c < w.1)) q with ⟨e | m, q'⟩
      · rw [hrun'] at htrades
        rw [Prog.bind_run_error hrun']
        exact ⟨htrades.held, fun _ => htrades.cursor.trans hbatches.cursor, by simp, by simp,
          .inl (htrades.cursor.trans hbatches.cursor),
          fun hp => absurd (htrades.alive (hbatches.alive hp).2).1 (by simp)⟩
      · rw [hrun'] at htrades
        rw [Prog.bind_run_ok hrun']
        refine finish_run hs (htrades.cursor.trans hbatches.cursor) hc (fun t => ?_)
          (fun e he hlt => htrade e (List.mem_filter.mpr ⟨he, by simpa using hlt⟩))
          fun hp => (htrades.alive (hbatches.alive hp).2).2
        cases t with
        | journal day => exact htrades.complete _ (hjournal day)
        | trades => exact htrades.done m rfl _ rfl

end OneExport

/-! ### Histories -/

section Histories

variable {s : Journal}

/-- **The invariant of a history.** -/
structure Sound (conv : Conversions) (s : Journal) : Prop where
  sorted : s.rows.Pairwise fun a b => a.seq < b.seq
  bounded : ∀ e ∈ s.rows, e.seq ≤ s.rows.length
  cursor : s.disk.cursor ≤ s.rows.length
  lines : ∀ e ∈ s.rows, ∃ l, journalLine e = .ok l
  trades : ∀ e ∈ s.rows, e.seq ≤ s.disk.cursor → ∃ l, tradeLine conv e = .ok l
  held : Held conv s.rows s.disk

lemma sound_start (conv : Conversions) : Sound conv Journal.start := by
  refine ⟨.nil, by simp [Journal.start], le_rfl, by simp [Journal.start], by simp [Journal.start],
    fun t => ⟨0, ⟨le_rfl, [], [], rfl, by simp, by simp, by simp, rfl⟩, ?_⟩⟩
  intro w hw
  simp [Journal.start, Export.lines] at hw

/-- A row whose payload the store could dump has a journal line. -/
lemma journalLine_total {entry : Entry} {t : Text} (h : canonicalJson entry.payload = .ok t)
    (seq : ℕ) : ∃ l, journalLine (entry.numbered seq) = .ok l := by
  obtain ⟨v, hv, -⟩ := except_bind_ok_iff.mp h
  have hpayload : CanonicalJson.normalize (text "$" ++ '.' :: text "payload")
      (.obj entry.payload) = .ok (.obj entry.payload) := CanonicalJson.normalize_path _ hv
  exact ⟨_, by
    rw [journalLine, canonicalJson, CanonicalJson.normalize]
    simp only [CanonicalJson.normalizeMembers, CanonicalJson.normalize,
      Entry.numbered] at hpayload ⊢
    rw [hpayload]
    rfl⟩

/-- The lines of a target with one row more. -/
lemma holds_grow {ws vs : List (ℕ × Text)} {m : ℕ} {file : Bytes} (h : Holds ws m file) :
    Holds (ws ++ vs) m file := by
  obtain ⟨hm, ls, torn, hfile, htorn, hmiss, hp, hrec⟩ := h
  refine ⟨by simp only [List.length_append]; omega, ls, torn, hfile, htorn, fun ht => ?_, hp, ?_⟩
  · have := hmiss ht
    simp only [List.length_append]
    omega
  · rw [List.take_append_of_le_length hm, hrec]

lemma sound_grow (h : Sound conv s) (entry : Entry) : Sound conv (s.grow entry) := by
  unfold Journal.grow
  split
  · exact h
  · next t ht =>
    have hnew : (entry.numbered (s.rows.length + 1)).seq = s.rows.length + 1 := rfl
    have hcursor := h.cursor
    refine ⟨?_, fun e he => ?_, ?_, fun e he => ?_, fun e he hle => ?_, fun u => ?_⟩
    · refine List.pairwise_append.mpr ⟨h.sorted, List.pairwise_singleton _ _, fun a ha b hb => ?_⟩
      obtain rfl := List.mem_singleton.mp hb
      have := h.bounded a ha
      omega
    · simp only [List.length_append, List.length_singleton]
      rcases List.mem_append.mp he with he | he
      · have := h.bounded e he
        omega
      · obtain rfl := List.mem_singleton.mp he
        exact hnew.le
    · simp only [List.length_append, List.length_singleton]
      omega
    · rcases List.mem_append.mp he with he | he
      · exact h.lines e he
      · obtain rfl := List.mem_singleton.mp he
        exact journalLine_total ht _
    · rcases List.mem_append.mp he with he | he
      · exact h.trades e he hle
      · obtain rfl := List.mem_singleton.mp he
        simp only at hle
        omega
    · obtain ⟨m, hm, hc⟩ := h.held u
      refine ⟨m, ?_, fun w hw => ?_⟩
      · rw [lines_append]
        exact holds_grow hm
      · rw [lines_append, List.drop_append_of_le_length hm.1] at hw
        rcases List.mem_append.mp hw with hw | hw
        · exact hc w hw
        · obtain ⟨e, he, hew⟩ := List.mem_filterMap.mp hw
          obtain rfl := List.mem_singleton.mp he
          rw [(keyedLine_some hew).1, hnew]
          exact Nat.lt_succ_of_le hcursor

lemma sound_exports (h : Sound conv s) (left : Option ℕ) :
    Sound conv { s with disk := (s.exports conv left).2.disk } := by
  have hrun := exportLedger_run (p := ⟨s.disk, left⟩) h.sorted h.lines h.held
  refine ⟨h.sorted, h.bounded, ?_, h.lines, fun e he hle => ?_, hrun.held⟩
  · rcases hrun.bounded with hb | ⟨e, he, hb⟩
    · exact hb.trans_le h.cursor
    · exact hb.trans_le (h.bounded e he)
  · by_cases hok : ∃ x, (s.exports conv left).1 = .ok x
    · obtain ⟨x, hx⟩ := hok
      by_cases hlt : s.disk.cursor < e.seq
      · exact (hrun.moves x hx e he hlt).2
      · exact h.trades e he (by omega)
    · push Not at hok
      have hstay := hrun.stays hok
      exact h.trades e he (hle.trans_eq hstay)

lemma sound_note (h : Sound conv s) (seq : ℕ) (kind : Text) (payload : List (Text × Value))
    (left : Option ℕ) : Sound conv (s.note seq kind payload left) := by
  unfold Journal.note
  split
  · exact h
  · next e he =>
    have hmem := List.mem_of_find?_eq_some he
    have hseq : e.seq = seq := by simpa using List.find?_some he
    obtain ⟨l, hl⟩ := h.lines e hmem
    have hline : lineFor conv (.journal e.day) e = .ok (some l) := by
      rw [lineFor, if_pos rfl, hl]
      rfl
    have hin : (e.seq, l) ∈ Export.lines conv (.journal e.day) s.rows :=
      List.mem_filterMap.mpr ⟨e, hmem, keyedLine_of hline⟩
    obtain ⟨m, hm, hc⟩ := h.held (.journal e.day)
    obtain ⟨hp, hnote⟩ := noteLine_note seq kind payload
    have hrun := exportLine_run (p := ⟨s.disk, left⟩) (keyed_lines h.sorted _) hm hin hp hnote
    simp only [hseq] at hrun
    have hcursor : (exportLine e.day seq (noteLine seq kind payload)
        ⟨s.disk, left⟩).2.disk.cursor = s.disk.cursor := by
      rw [hrun.disk]
      rfl
    refine ⟨h.sorted, h.bounded, ?_, h.lines, ?_, fun u => ?_⟩
    · rw [hcursor]
      exact h.cursor
    · rw [hcursor]
      exact h.trades
    · rw [hcursor]
      by_cases hu : u = .journal e.day
      · subst hu
        exact ⟨m, hrun.holds, hc⟩
      · rw [hrun.disk, setFile_file, if_neg hu]
        exact h.held u

lemma sound_step (h : Sound conv s) (a : Action) : Sound conv (step conv s a) := by
  cases a with
  | grow entry => exact sound_grow h entry
  | exports left => exact sound_exports h left
  | note seq kind payload left => exact sound_note h seq kind payload left

theorem sound_after (conv : Conversions) (as : List Action) :
    Sound conv (Runs.after (step conv) Journal.start as) :=
  Runs.invariant (I := Sound conv) (fun _ a h => sound_step h a) (sound_start conv) as

end Histories

/-! ### Exactly once -/

/-- The rows that have a line in a target. -/
def inTarget : Target → Event → Bool
  | .journal day, e => e.day = day
  | .trades, e => e.isBuy || e.type = text "OrderRejected" || e.type = text "PositionClosed"

/-- **Exactly once:** no torn line, and the records of a target are the lines of its rows, each
row's seq once and in order. -/
structure ExportedOnce (conv : Conversions) (rows : List Event) (t : Target) (file : Bytes) :
    Prop where
  whole : Bytes.complete file = file
  seqs : (Bytes.splitlines file).filterMap exportedSeq =
    (rows.filter (inTarget t)).map fun e => (e.seq : ℤ)
  sorted : ((rows.filter (inTarget t)).map Event.seq).Pairwise (· < ·)
  records : ∃ ls : List Text,
    List.Forall₂ (fun e l => lineFor conv t e = .ok (some l)) (rows.filter (inTarget t)) ls ∧
    (Bytes.splitlines file).filter (fun raw => (exportedSeq raw).isSome) = ls.map Bytes.encode

section Once

variable {rows : List Event} {t : Target}

lemma lineFor_inTarget {e : Event} {l : Option Text} (h : lineFor conv t e = .ok l) :
    l.isSome = inTarget t e := by
  cases t with
  | journal day =>
    simp only [lineFor] at h
    split_ifs at h with hday
    · obtain ⟨x, -, rfl⟩ := map_ok_iff.mp h
      simp [inTarget, hday]
    · cases h
      simp [inTarget, hday]
  | trades =>
    simp only [lineFor, tradeLine] at h
    split_ifs at h with h₁ h₂ h₃
    · obtain ⟨x, -, rfl⟩ := map_ok_iff.mp h
      simp [inTarget, h₁]
    · obtain ⟨x, -, rfl⟩ := map_ok_iff.mp h
      simp [inTarget, h₂]
    · obtain ⟨x, -, rfl⟩ := map_ok_iff.mp h
      simp [inTarget, h₃]
    · cases h
      simp [inTarget, h₁, h₂, h₃]

/-- Where every row's line can be built, the wanted lines are those of the target's rows. -/
lemma lines_rows (h : ∀ e ∈ rows, ∃ l, lineFor conv t e = .ok l) :
    List.Forall₂ (fun e w => w.1 = e.seq ∧ lineFor conv t e = .ok (some w.2))
      (rows.filter (inTarget t)) (lines conv t rows) := by
  induction rows with
  | nil => exact .nil
  | cons e rows ih =>
    obtain ⟨l, hl⟩ := h e (by simp)
    have hin := lineFor_inTarget hl
    have hrest := ih fun a ha => h a (by simp [ha])
    rcases l with - | l
    · have hk : keyedLine conv t e = none := by rw [keyedLine, hl]
      rw [List.filter_cons_of_neg (by simp [← hin]), lines, List.filterMap_cons_none hk]
      exact hrest
    · rw [List.filter_cons_of_pos (by simp [← hin]), lines,
        List.filterMap_cons_some (keyedLine_of hl)]
      exact .cons ⟨rfl, hl⟩ hrest

lemma exportedOnce_of_complete (hs : rows.Pairwise fun a b => a.seq < b.seq)
    (h : ∀ e ∈ rows, ∃ l, lineFor conv t e = .ok l) {d : Disk} (hc : Complete conv rows d t) :
    ExportedOnce conv rows t (d.file t) := by
  have hw : Keyed (lines conv t rows) := keyed_lines hs t
  have hrows := lines_rows h
  obtain ⟨-, ls, torn, hfile, htorn, hmiss, hp, hrec⟩ := hc
  have hnil : torn = [] := by
    by_contra hne
    exact lt_irrefl _ (hmiss hne)
  rw [hnil, List.append_nil] at hfile
  rw [List.take_length] at hrec
  rw [hfile]
  refine ⟨Bytes.complete_joinLines _, ?_, ?_, (lines conv t rows).map Prod.snd, ?_, ?_⟩
  · have hseqs : (lines conv t rows).map (fun w => (w.1 : ℤ)) =
        (rows.filter (inTarget t)).map fun e => (e.seq : ℤ) := by
      rw [← List.forall₂_eq_eq_eq, List.forall₂_map_left_iff, List.forall₂_map_right_iff]
      exact (hrows.imp fun _ _ hab => congrArg _ hab.1).flip
    have hread := exportedSeqs_lines (m := (lines conv t rows).length) hw hp
      (by rw [hrec, List.take_length])
    rw [List.take_length, hseqs] at hread
    exact hread
  · exact (hs.filter _).map Event.seq fun _ _ hab => hab
  · rw [List.forall₂_map_right_iff]
    exact hrows.imp fun _ _ hab => hab.2
  · rw [lines_of_printable hp, List.filter_map, ← hrec]
    rfl

/-- **Exports that die and are run again.** After any history of growth, of exports that died
after any byte, and of notes by the tool, an export that returns leaves each target with the line
of each of its rows exactly once, in order, and no torn line. An export that nothing kills returns
if the trade lines can be built. -/
theorem exported_once (conv : Conversions) (as : List Action) (left : Option ℕ) :
    (∀ x, ((Runs.after (step conv) Journal.start as).exports conv left).1 = .ok x →
      ∀ t, ExportedOnce conv (Runs.after (step conv) Journal.start as).rows t
        (((Runs.after (step conv) Journal.start as).exports conv left).2.disk.file t)) ∧
    (left = none →
      (∀ e ∈ (Runs.after (step conv) Journal.start as).rows, ∃ l, tradeLine conv e = .ok l) →
      ∃ x, ((Runs.after (step conv) Journal.start as).exports conv left).1 = .ok x) := by
  have hsound := sound_after conv as
  have hrun := exportLedger_run (p := ⟨(Runs.after (step conv) Journal.start as).disk, left⟩)
    hsound.sorted hsound.lines hsound.held
  refine ⟨fun x hx t => ?_, fun hleft htrade => hrun.alive hleft htrade⟩
  refine exportedOnce_of_complete hsound.sorted (fun e he => ?_) (hrun.complete x hx t)
  cases t with
  | journal day =>
    simp only [lineFor]
    split_ifs
    · obtain ⟨l, hl⟩ := hsound.lines e he
      exact ⟨some l, by rw [hl]; rfl⟩
    · exact ⟨none, rfl⟩
  | trades =>
    by_cases hlt : (Runs.after (step conv) Journal.start as).disk.cursor < e.seq
    · exact (hrun.moves x hx e he hlt).2
    · exact hsound.trades e he (by omega)

end Once

end Export

end PumpGrok
