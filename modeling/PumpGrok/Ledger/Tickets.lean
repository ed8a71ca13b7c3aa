import PumpGrok.Core.CanonicalJson
import PumpGrok.Core.Types
import PumpGrok.Ledger.HashChain
import PumpGrok.Lib.PyText

/-!
Ticket ids `SOL-YYYYMMDD-NNN` over the journal notes of a ledger: the number is one more than the
highest of the day, and its key in the ledger decides between allocators that counted the same.
Number 1000 is written with four digits, which the reader of the ids does not count.
-/

namespace PumpGrok

namespace Tickets

open Json (Value)

inductive NoteKind where
  | lead
  | whale
  | social
  | signal
  | verdict
  | safetyReport
  | review
  | ticket
  | note
  deriving DecidableEq

def NoteKind.value : NoteKind → Text
  | lead => "lead".toList
  | whale => "whale".toList
  | social => "social".toList
  | signal => "signal".toList
  | verdict => "verdict".toList
  | safetyReport => "safety_report".toList
  | review => "review".toList
  | ticket => "ticket".toList
  | note => "note".toList

structure JournalNote where
  source : Text
  seat : Text
  noteKind : NoteKind
  text : Text
  refs : List Text
  deriving DecidableEq

def JournalNote.members (n : JournalNote) : List (Text × Value) :=
  [("source".toList, .str n.source), ("seat".toList, .str n.seat),
    ("note_kind".toList, .str n.noteKind.value), ("text".toList, .str n.text),
    ("refs".toList, .arr (n.refs.map .str))]

/-- The text a note is stored as. -/
def JournalNote.payloadJson (n : JournalNote) : Text :=
  match CanonicalJson.canonicalJson n.members with
  | .ok t => t
  | .error _ => []

/-- A row of the ledger; the payload of a row of another type is not read here. -/
structure Row where
  tsUtc : Text
  source : Text
  correlationId : Text
  idempotencyKey : Text
  note : Option JournalNote
  deriving DecidableEq

structure Store where
  rows : List Row := []
  inconsistent : Bool := false
  deriving DecidableEq

namespace Store

def taken (st : Store) (key : Text) : Bool := st.rows.any fun row => row.idempotencyKey = key

/-- The envelope of a row is complete. -/
def Sound (row : Row) : Prop :=
  row.source ∈ HashChain.sources ∧ row.tsUtc ≠ [] ∧ row.correlationId ≠ [] ∧ row.idempotencyKey ≠ []

instance (row : Row) : Decidable (Sound row) := inferInstanceAs (Decidable (_ ∧ _))

/-- `append_batch` of one row. -/
def appendBatch (row : Row) (st : Store) : Except Exc Unit × Store :=
  if st.inconsistent then (.error .ledgerInconsistent, st)
  else if ¬ Sound row then (.error .valueError, st)
  else if st.taken row.idempotencyKey then (.error .integrityError, st)
  else (.ok (), { st with rows := st.rows ++ [row] })

/-- Rows other processes commit; a taken key refuses its row. -/
def others (rows : List Row) (st : Store) : Store :=
  rows.foldl
    (fun st row =>
      if st.taken row.idempotencyKey then st else { st with rows := st.rows ++ [row] })
    st

end Store

/-! ### Ids and numbers -/

/-- `TICKET_RE.fullmatch`; the ticket field of an order has the same pattern. -/
def ticketRe (id : Text) : Bool :=
  id.length = 16 && id.take 4 = "SOL-".toList && ((id.drop 4).take 8).all PyText.isDecimal &&
    (id.drop 12).take 1 = ['-'] && (id.drop 13).all PyText.isDecimal

def ticketPrefix (compactDay : Text) : Text := "SOL-".toList ++ compactDay ++ ['-']

/-- At least three digits. -/
def padded (n : ℕ) : Text := (Nat.toDigits 10 n).leftpad 3 '0'

def ticketId (compactDay : Text) (n : ℕ) : Text := ticketPrefix compactDay ++ padded n

/-- The pattern `%p%`, for a text `p` without wildcards; the case of ASCII letters is ignored. -/
def like (p t : Text) : Bool := decide (p.map Char.toLower <:+: t.map Char.toLower)

/-- The number of the ticket a stored text carries. -/
def ticketNumber (day : Text) (payloadJson : Text) : Option ℕ :=
  match Json.loads payloadJson with
  | some (.obj ms) =>
    match AssocList.get "note_kind".toList ms.reverse, AssocList.get "refs".toList ms.reverse with
    | some (.str kind), some (.arr (.str id :: _)) =>
      if kind = "ticket".toList && (ticketPrefix day).isPrefixOf id && ticketRe id then
        some (PyText.intOf (id.drop (ticketPrefix day).length))
      else none
    | _, _ => none
  | _ => none

def seeText (day : Text) (highest : ℕ) (payloadJson : Text) : ℕ :=
  match ticketNumber day payloadJson with
  | some n => max highest n
  | none => highest

/-- Highest number among the day's stored ticket ids; 0 when the day has none. -/
def dayMaxTicketNumber (st : Store) (compactDay : Text) : ℕ :=
  ((st.rows.filterMap fun row => row.note.map JournalNote.payloadJson).filter
    (like (ticketPrefix compactDay))).foldl (seeText compactDay) 0

/-! ### Allocation -/

/-- The text starts with a date `YYYY-MM-DD`. -/
def Dated (t : Text) : Prop :=
  ∃ y m d rest, t = y ++ '-' :: (m ++ '-' :: (d ++ rest)) ∧ y.length = 4 ∧ m.length = 2 ∧
    d.length = 2 ∧ ∀ c ∈ y ++ (m ++ d), c.isDigit = true

structure TicketCall where
  tsUtc : Text
  source : Text
  correlationId : Text
  seat : Text
  title : Text
  dated : Dated tsUtc

def TicketCall.compactDay (c : TicketCall) : Text := (c.tsUtc.take 10).filter (· ≠ '-')

def ticketRow (c : TicketCall) (id : Text) : Row where
  tsUtc := c.tsUtc
  source := c.source
  correlationId := c.correlationId
  idempotencyKey := "ticket:".toList ++ id
  note := some
    { source := c.source
      seat := c.seat
      noteKind := .ticket
      text := id ++ ' ' :: c.title
      refs := [id] }

inductive TicketError where
  | exc (e : Exc)
  | allocationFailed
  deriving DecidableEq

def maxAttempts : ℕ := 10

/-- Count, then append; a taken key counts anew. The rows that other processes commit between the
two are given for each attempt. -/
def attempts (c : TicketCall) : ℕ → List (List Row) → Store → Except TicketError Text × Store
  | 0, _, st => (.error .allocationFailed, st)
  | k + 1, rows, st =>
    let id := ticketId c.compactDay (dayMaxTicketNumber st c.compactDay + 1)
    match (st.others (rows.headD [])).appendBatch (ticketRow c id) with
    | (.ok _, st') => (.ok id, st')
    | (.error .integrityError, st') => attempts c k rows.tail st'
    | (.error e, st') => (.error (.exc e), st')

def allocateTicket (c : TicketCall) (rows : List (List Row)) (st : Store) :
    Except TicketError Text × Store :=
  attempts c maxAttempts rows st

/-! ### What is stored and what is counted -/

lemma normalizeItems_str (path : Text) (i : ℕ) (ts : List Text) :
    CanonicalJson.normalizeItems path i (ts.map Value.str) = .ok (ts.map Value.str) := by
  induction ts generalizing i with
  | nil => rfl
  | cons t ts ih =>
    rw [List.map_cons, CanonicalJson.normalizeItems, ih]
    rfl

/-- No field of a note is refused, and the fields are stored sorted. -/
lemma payloadJson_eq (n : JournalNote) : n.payloadJson = Json.dumps CanonicalJson.compact
    (.obj (CanonicalJson.sortMembers (CanonicalJson.sortKeysMembers n.members))) := by
  have hn : CanonicalJson.canonicalJson n.members = .ok (Json.dumps CanonicalJson.compact
      (.obj (CanonicalJson.sortMembers (CanonicalJson.sortKeysMembers n.members)))) := by
    unfold CanonicalJson.canonicalJson JournalNote.members
    simp only [CanonicalJson.normalize, CanonicalJson.normalizeMembers, normalizeItems_str]
    rfl
  unfold JournalNote.payloadJson
  rw [hn]

/-- The day's number of the ticket a note stores. -/
def JournalNote.number (day : Text) (n : JournalNote) : Option ℕ :=
  match n.refs with
  | id :: _ =>
    if n.noteKind = .ticket ∧ ticketPrefix day <+: id ∧ ticketRe id = true then
      some (PyText.intOf (id.drop (ticketPrefix day).length))
    else none
  | [] => none

lemma value_eq_ticket (k : NoteKind) : k.value = "ticket".toList ↔ k = .ticket := by
  cases k <;> decide

lemma sortKeysItems_str (ts : List Text) :
    CanonicalJson.sortKeysItems (ts.map Value.str) = ts.map Value.str := by
  induction ts with
  | nil => rfl
  | cons t ts ih =>
    rw [List.map_cons, CanonicalJson.sortKeysItems, ih]
    rfl

lemma members_nodup (n : JournalNote) : (n.members.map Prod.fst).Nodup := by
  show ["source".toList, "seat".toList, "note_kind".toList, "text".toList, "refs".toList].Nodup
  decide

/-- The stored text is read as the note it was made from. -/
lemma ticketNumber_payloadJson (day : Text) (n : JournalNote) :
    ticketNumber day n.payloadJson = n.number day := by
  have hkind := CanonicalJson.get_sortMembers (members_nodup n)
    (k := "note_kind".toList) (v := .str n.noteKind.value) (by simp [JournalNote.members])
  have hrefs := CanonicalJson.get_sortMembers (members_nodup n)
    (k := "refs".toList) (v := .arr (n.refs.map .str)) (by simp [JournalNote.members])
  replace hkind : AssocList.get "note_kind".toList _ = some (Value.str n.noteKind.value) := hkind
  replace hrefs : AssocList.get "refs".toList _ = some (Value.arr _) := hrefs
  rw [sortKeysItems_str] at hrefs
  unfold ticketNumber JournalNote.number
  rw [payloadJson_eq, Json.loads_dumps]
  dsimp only
  rw [hkind, hrefs]
  rcases n.refs with - | ⟨id, rest⟩
  · rfl
  · simp only [List.map_cons, Bool.and_eq_true, decide_eq_true_eq, value_eq_ticket,
      List.isPrefixOf_iff_prefix, and_assoc]

/-- The texts of a day are made of characters that stand for themselves in a dump. -/
lemma prefix_plain {day : Text} (hd : ∀ c ∈ day, c.isDigit = true) :
    ∀ c ∈ ticketPrefix day, Json.escapeIn true c = [c] := by
  have hsign : ∀ c ∈ "SOL-".toList, 45 ≤ c.toNat ∧ c.toNat < 92 := by simp
  have hdigit : ∀ c : Char, c.isDigit = true → 45 ≤ c.toNat ∧ c.toNat < 92 := by
    intro c hc
    have hrange : 48 ≤ c.toNat ∧ c.toNat ≤ 57 := by
      simpa [Char.isDigit, UInt32.le_iff_toNat_le] using hc
    omega
  intro c hc
  unfold ticketPrefix at hc
  refine Json.escapeIn_plain true ?_ ?_
  · rcases List.mem_append.mp hc with hc | hc
    · rcases List.mem_append.mp hc with hc | hc
      · exact (hsign c hc).1
      · exact (hdigit c (hd c hc)).1
    · rw [List.mem_singleton.mp hc]
      decide
  · rcases List.mem_append.mp hc with hc | hc
    · rcases List.mem_append.mp hc with hc | hc
      · exact (hsign c hc).2
      · exact (hdigit c (hd c hc)).2
    · rw [List.mem_singleton.mp hc]
      decide

/-- The filter of the query loses no ticket of the day. -/
lemma like_payloadJson {day : Text} (hd : ∀ c ∈ day, c.isDigit = true) {n : JournalNote} {k : ℕ}
    (h : n.number day = some k) : like (ticketPrefix day) n.payloadJson = true := by
  unfold JournalNote.number at h
  rcases hr : n.refs with - | ⟨id, refs⟩
  · simp [hr] at h
  · simp only [hr] at h
    split_ifs at h with hid
    obtain ⟨-, ⟨rest, rfl⟩, -⟩ := hid
    have hmember : ("refs".toList, Value.arr (n.refs.map .str)) ∈
        CanonicalJson.sortMembers (CanonicalJson.sortKeysMembers n.members) := by
      have hmem := CanonicalJson.mem_sortKeysMembers
        (show ("refs".toList, Value.arr (n.refs.map .str)) ∈ n.members by
          simp [JournalNote.members])
      rw [CanonicalJson.sortKeys, sortKeysItems_str] at hmem
      exact (List.mergeSort_perm _ _).mem_iff.mpr hmem
    have hitem : Value.str (ticketPrefix day ++ rest) ∈ n.refs.map Value.str := by simp [hr]
    have hwithin : ticketPrefix day <:+: n.payloadJson := by
      rw [payloadJson_eq]
      refine ((Json.quoteIn_plain_within true rest (prefix_plain hd)).trans ?_).trans
        ((Json.dumps_item_within CanonicalJson.compact hitem).trans
          (Json.dumps_member_within CanonicalJson.compact hmember))
      rw [Json.dumps]
      exact List.infix_rfl
    exact decide_eq_true (hwithin.map Char.toLower)

/-- A ticket of the day with this number is stored. -/
def Stored (st : Store) (day : Text) (k : ℕ) : Prop :=
  ∃ row ∈ st.rows, ∃ n, row.note = some n ∧ n.number day = some k

/-- Three digits hold no more. -/
lemma number_le {day : Text} {n : JournalNote} {k : ℕ} (hday : day.length = 8)
    (h : n.number day = some k) : k ≤ 999 := by
  unfold JournalNote.number at h
  rcases hr : n.refs with - | ⟨id, refs⟩
  · simp [hr] at h
  · simp only [hr] at h
    split_ifs at h with hid
    obtain ⟨-, ⟨rest, rfl⟩, hre⟩ := hid
    obtain rfl := Option.some.inj h
    have hlen : (ticketPrefix day ++ rest).length = 16 := by
      unfold ticketRe at hre
      simp only [Bool.and_eq_true, decide_eq_true_eq] at hre
      exact hre.1.1.1.1
    have hprefix : (ticketPrefix day).length = 13 := by
      simp [ticketPrefix, hday]
    rw [List.length_append, hprefix] at hlen
    have hlt := PyText.intOf_lt ((ticketPrefix day ++ rest).drop (ticketPrefix day).length)
    rw [List.drop_left] at hlt ⊢
    have hthree : rest.length = 3 := by omega
    rw [hthree] at hlt
    omega

section Counting

variable {st : Store} {day : Text} {k : ℕ}

lemma foldl_seeText (day : Text) (texts : List Text) (b : ℕ) : b ≤ texts.foldl (seeText day) b := by
  induction texts generalizing b with
  | nil => exact le_rfl
  | cons t texts ih =>
    refine le_trans ?_ (ih (seeText day b t))
    unfold seeText
    split
    · exact le_max_left _ _
    · exact le_rfl

lemma le_foldl_seeText {texts : List Text} {t : Text} (b : ℕ) (ht : t ∈ texts)
    (hk : ticketNumber day t = some k) : k ≤ texts.foldl (seeText day) b := by
  induction texts generalizing b with
  | nil => simp at ht
  | cons u texts ih =>
    rcases List.mem_cons.mp ht with rfl | ht
    · refine le_trans ?_ (foldl_seeText day texts (seeText day b t))
      unfold seeText
      rw [hk]
      exact le_max_right b k
    · exact ih _ ht

/-- The highest number is the first one, or one of a text. -/
lemma foldl_seeText_mem (texts : List Text) (b : ℕ) : texts.foldl (seeText day) b = b ∨
    ∃ t ∈ texts, ticketNumber day t = some (texts.foldl (seeText day) b) := by
  induction texts generalizing b with
  | nil => exact .inl rfl
  | cons u texts ih =>
    rw [List.foldl_cons]
    rcases ih (seeText day b u) with h | ⟨t, ht, hk⟩
    · rw [h]
      rcases hu : ticketNumber day u with - | n
      · exact .inl (by simp [seeText, hu])
      · rcases le_total b n with hle | hle
        · exact .inr ⟨u, List.mem_cons_self, by simp [seeText, hu, hle]⟩
        · exact .inl (by simp [seeText, hu, hle])
    · exact .inr ⟨t, List.mem_cons_of_mem _ ht, hk⟩

variable (hd : ∀ c ∈ day, c.isDigit = true)

include hd in
lemma stored_iff : Stored st day k ↔
    ∃ t ∈ (st.rows.filterMap fun row => row.note.map JournalNote.payloadJson).filter
      (like (ticketPrefix day)), ticketNumber day t = some k := by
  constructor
  · rintro ⟨row, hrow, n, hn, hk⟩
    refine ⟨n.payloadJson, List.mem_filter.mpr ⟨?_, like_payloadJson hd hk⟩, ?_⟩
    · exact List.mem_filterMap.mpr ⟨row, hrow, by rw [hn]; rfl⟩
    · rw [ticketNumber_payloadJson, hk]
  · rintro ⟨t, ht, hk⟩
    obtain ⟨row, hrow, hmap⟩ := List.mem_filterMap.mp (List.mem_filter.mp ht).1
    obtain ⟨n, hn, rfl⟩ := Option.map_eq_some_iff.mp hmap
    exact ⟨row, hrow, n, hn, by rw [← ticketNumber_payloadJson, hk]⟩

include hd in
/-- Every ticket of the day is counted. -/
lemma le_dayMax (h : Stored st day k) : k ≤ dayMaxTicketNumber st day := by
  obtain ⟨t, ht, hk⟩ := (stored_iff hd).mp h
  exact le_foldl_seeText 0 ht hk

include hd in
lemma dayMax_stored (st : Store) :
    dayMaxTicketNumber st day = 0 ∨ Stored st day (dayMaxTicketNumber st day) := by
  rcases @foldl_seeText_mem day ((st.rows.filterMap fun row =>
    row.note.map JournalNote.payloadJson).filter (like (ticketPrefix day))) 0 with h | h
  · exact .inl h
  · exact .inr ((stored_iff hd).mpr h)

include hd in
lemma dayMax_le (st : Store) (hday : day.length = 8) : dayMaxTicketNumber st day ≤ 999 := by
  rcases dayMax_stored hd st with h | ⟨-, -, n, -, hk⟩
  · omega
  · exact number_le hday hk

include hd in
/-- The numbers of a day are used up when its last one is stored. -/
lemma dayMax_eq (hday : day.length = 8) : dayMaxTicketNumber st day = 999 ↔ Stored st day 999 := by
  constructor
  · intro h
    rcases dayMax_stored hd st with h0 | hs
    · omega
    · rwa [h] at hs
  · intro h
    have hge := le_dayMax hd h
    have hle := dayMax_le hd st hday
    omega

end Counting

/-! ### Ids -/

lemma padded_length {n : ℕ} (h : n ≤ 999) : (padded n).length = 3 := by
  have hlen := Nat.toDigits_length 10 n 3 (by omega) (by omega)
  rw [padded, List.leftpad, List.length_append, List.length_replicate]
  omega

lemma padded_digits (n : ℕ) : ∀ c ∈ padded n, c.isDigit = true := by
  intro c hc
  rw [padded, List.leftpad] at hc
  rcases List.mem_append.mp hc with hc | hc
  · rw [(List.mem_replicate.mp hc).2]
    rfl
  · exact Nat.isDigit_of_mem_toDigits (by norm_num) (by norm_num) hc

/-- What the allocator writes is what the reader of the ids reads. -/
lemma intOf_padded (n : ℕ) : PyText.intOf (padded n) = n := by
  rw [PyText.intOf_eq_ofDigitChars (padded_digits n), padded, List.leftpad,
    Nat.ofDigitChars_append, Nat.ofDigitChars_replicate_zero, Nat.mul_zero,
    Nat.ofDigitChars_ten_toDigits]

lemma padded_last : padded 1000 = "1000".toList := by decide

lemma compactDay_digits (c : TicketCall) :
    c.compactDay.length = 8 ∧ ∀ x ∈ c.compactDay, x.isDigit = true := by
  obtain ⟨y, m, d, rest, ht, hy, hm, hd, hdigits⟩ := c.dated
  have hne : ∀ x ∈ y ++ (m ++ d), x ≠ '-' := by
    rintro x hx rfl
    exact absurd (hdigits _ hx) (by decide)
  have htake : c.tsUtc.take 10 = y ++ '-' :: (m ++ '-' :: d) := by
    rw [ht]
    have hlen : (y ++ '-' :: (m ++ '-' :: d)).length = 10 := by simp [hy, hm, hd]
    have happ : y ++ '-' :: (m ++ '-' :: (d ++ rest)) = (y ++ '-' :: (m ++ '-' :: d)) ++ rest := by
      simp
    rw [happ, List.take_left' hlen]
  have hcompact : c.compactDay = y ++ (m ++ d) := by
    unfold TicketCall.compactDay
    rw [htake]
    have hkeep : ∀ t : Text, (∀ x ∈ t, x ≠ '-') → t.filter (· ≠ '-') = t := fun t h =>
      List.filter_eq_self.mpr fun x hx => by simpa using h x hx
    rw [List.filter_append, List.filter_cons_of_neg (by simp), List.filter_append,
      List.filter_cons_of_neg (by simp), hkeep y fun x hx => hne x (by simp [hx]),
      hkeep m fun x hx => hne x (by simp [hx]), hkeep d fun x hx => hne x (by simp [hx])]
  rw [hcompact]
  exact ⟨by simp [hy, hm, hd], hdigits⟩

/-- An id with a number of three digits has the format. -/
lemma ticketRe_ticketId {day : Text} (hlen : day.length = 8) (hd : ∀ c ∈ day, c.isDigit = true)
    {n : ℕ} (hn : n ≤ 999) : ticketRe (ticketId day n) = true := by
  have hp := padded_length hn
  have hsplit : ticketId day n = "SOL-".toList ++ (day ++ ('-' :: padded n)) := by
    simp [ticketId, ticketPrefix]
  have h12 : ticketId day n = ("SOL-".toList ++ day) ++ ('-' :: padded n) := by
    rw [hsplit, List.append_assoc]
  have h13 : ticketId day n = ("SOL-".toList ++ day ++ ['-']) ++ padded n := rfl
  have hdrop4 : (ticketId day n).drop 4 = day ++ ('-' :: padded n) := by
    rw [hsplit]
    rfl
  have htake8 : (day ++ ('-' :: padded n)).take 8 = day := List.take_left' hlen
  have hdrop12 : (ticketId day n).drop 12 = '-' :: padded n := by
    rw [h12]
    exact List.drop_left' (by simp [hlen])
  have hdrop13 : (ticketId day n).drop 13 = padded n := by
    rw [h13]
    exact List.drop_left' (by simp [hlen])
  have hall : ∀ t : Text, (∀ c ∈ t, c.isDigit = true) → t.all PyText.isDecimal = true :=
    fun t ht => List.all_eq_true.mpr fun c hc => PyText.isDecimal_of_isDigit (ht c hc)
  unfold ticketRe
  rw [hdrop4, htake8, hdrop12, hdrop13, hall day hd, hall _ (padded_digits n)]
  simp [hsplit, hlen, hp]

/-- The id with four digits has not. -/
lemma ticketRe_last {day : Text} (hlen : day.length = 8) :
    ticketRe (ticketId day 1000) = false := by
  have h : (ticketId day 1000).length ≠ 16 := by
    simp [ticketId, ticketPrefix, hlen, padded_last]
  unfold ticketRe
  simp [h]

/-! ### The store -/

namespace Store

/-- The row would be stored. -/
def Accepts (st : Store) (row : Row) : Prop :=
  st.inconsistent = false ∧ Sound row ∧ st.taken row.idempotencyKey = false

/-- The row would be refused for its key alone. -/
def Collides (st : Store) (row : Row) : Prop :=
  st.inconsistent = false ∧ Sound row ∧ st.taken row.idempotencyKey = true

instance (st : Store) (row : Row) : Decidable (st.Accepts row) :=
  inferInstanceAs (Decidable (_ ∧ _ ∧ _))

instance (st : Store) (row : Row) : Decidable (st.Collides row) :=
  inferInstanceAs (Decidable (_ ∧ _ ∧ _))

/-- What an append does: store the row, find its key taken, or refuse it otherwise. -/
lemma appendBatch_cases (st : Store) (row : Row) :
    (st.Accepts row ∧ st.appendBatch row = (.ok (), { st with rows := st.rows ++ [row] })) ∨
    (st.Collides row ∧ st.appendBatch row = (.error .integrityError, st)) ∨
    (¬ st.Accepts row ∧ ¬ st.Collides row ∧
      ∃ e, e ≠ .integrityError ∧ st.appendBatch row = (.error e, st)) := by
  unfold appendBatch
  rcases hi : st.inconsistent with - | -
  · by_cases hs : Sound row
    · rcases ht : st.taken row.idempotencyKey with - | -
      · exact .inl ⟨⟨hi, hs, ht⟩, by simp [hs]⟩
      · exact .inr (.inl ⟨⟨hi, hs, ht⟩, by simp [hs]⟩)
    · exact .inr (.inr ⟨fun h => hs h.2.1, fun h => hs h.2.1, .valueError, by simp, by simp [hs]⟩)
  · have hn : st.inconsistent ≠ false := by simp [hi]
    exact .inr (.inr ⟨fun h => hn h.1, fun h => hn h.1, .ledgerInconsistent, by simp, by simp⟩)

lemma rows_others (rows : List Row) (st : Store) : st.rows <+: (st.others rows).rows := by
  unfold others
  induction rows generalizing st with
  | nil => exact List.prefix_rfl
  | cons row rows ih =>
    rw [List.foldl_cons]
    refine List.IsPrefix.trans ?_ (ih _)
    split_ifs
    · exact List.prefix_rfl
    · exact List.prefix_append _ _

end Store

lemma Stored.mono {st st' : Store} {day : Text} {k : ℕ} (h : st.rows <+: st'.rows)
    (hs : Stored st day k) : Stored st' day k := by
  obtain ⟨row, hrow, hn⟩ := hs
  exact ⟨row, h.subset hrow, hn⟩

/-! ### One call -/

/-- No attempt that is made counts the last number of the day and finds the key of the number
after it free. -/
def InWidth (c : TicketCall) : ℕ → List (List Row) → Store → Prop
  | 0, _, _ => True
  | k + 1, rows, st =>
    (dayMaxTicketNumber st c.compactDay = 999 →
      ¬ (st.others (rows.headD [])).Accepts (ticketRow c (ticketId c.compactDay 1000))) ∧
    ((st.others (rows.headD [])).Collides
        (ticketRow c (ticketId c.compactDay (dayMaxTicketNumber st c.compactDay + 1))) →
      InWidth c k rows.tail (st.others (rows.headD [])))

/-- The store once other processes have committed their rows of the first attempts. -/
def Store.without (st : Store) (rows : List (List Row)) (i : ℕ) : Store :=
  (rows.take i).foldl (fun st batch => st.others batch) st

lemma Store.without_succ (st : Store) (rows : List (List Row)) (i : ℕ) :
    st.without rows (i + 1) = (st.others (rows.headD [])).without rows.tail i := by
  rcases rows with - | ⟨batch, rows⟩
  · simp [Store.without, Store.others]
  · rfl

/-- The number an id carries. -/
def idNumber (day id : Text) : ℕ := PyText.intOf (id.drop (ticketPrefix day).length)

lemma idNumber_ticketId (day : Text) (n : ℕ) : idNumber day (ticketId day n) = n := by
  unfold idNumber ticketId
  rw [List.drop_left, intOf_padded]

section Attempts

variable {c : TicketCall} {rows : List (List Row)} {st : Store}

/-- The row of the next attempt. -/
abbrev nextRow (c : TicketCall) (st : Store) : Row :=
  ticketRow c (ticketId c.compactDay (dayMaxTicketNumber st c.compactDay + 1))

/-- What one attempt does. -/
lemma attempts_cases (c : TicketCall) (k : ℕ) (rows : List (List Row)) (st : Store) :
    ((st.others (rows.headD [])).Accepts (nextRow c st) ∧ (attempts c (k + 1) rows st).1 =
      .ok (ticketId c.compactDay (dayMaxTicketNumber st c.compactDay + 1))) ∨
    ((st.others (rows.headD [])).Collides (nextRow c st) ∧
      attempts c (k + 1) rows st = attempts c k rows.tail (st.others (rows.headD []))) ∨
    (¬ (st.others (rows.headD [])).Accepts (nextRow c st) ∧
      ¬ (st.others (rows.headD [])).Collides (nextRow c st) ∧
      ∃ e, attempts c (k + 1) rows st = (.error (.exc e), st.others (rows.headD []))) := by
  rw [attempts]
  rcases (st.others (rows.headD [])).appendBatch_cases (nextRow c st) with
    ⟨ha, happ⟩ | ⟨hc, happ⟩ | ⟨ha, hc, e, he, happ⟩
  · refine .inl ⟨ha, ?_⟩
    simp only [happ]
  · refine .inr (.inl ⟨hc, ?_⟩)
    simp only [happ]
  · refine .inr (.inr ⟨ha, hc, e, ?_⟩)
    simp only [happ]

/-- A returned id has a number of three digits, higher than that of every ticket of the day. -/
lemma attempts_returned {k : ℕ} (hw : InWidth c k rows st) {id : Text}
    (h : (attempts c k rows st).1 = .ok id) :
    ∃ n, id = ticketId c.compactDay n ∧ n ≤ 999 ∧ ∀ m, Stored st c.compactDay m → m < n := by
  obtain ⟨hlen, hd⟩ := compactDay_digits c
  induction k generalizing rows st with
  | zero => simp [attempts] at h
  | succ k ih =>
    obtain ⟨hfree, hrest⟩ := hw
    have hle := dayMax_le hd st hlen
    rcases attempts_cases c k rows st with ⟨ha, happ⟩ | ⟨hc, happ⟩ | ⟨-, -, e, happ⟩
    · rw [happ] at h
      obtain rfl := Except.ok.inj h
      refine ⟨_, rfl, ?_, fun m hm => Nat.lt_succ_of_le (le_dayMax hd hm)⟩
      have hne : dayMaxTicketNumber st c.compactDay ≠ 999 := by
        intro h999
        rw [nextRow, h999] at ha
        exact hfree h999 ha
      omega
    · rw [happ] at h
      obtain ⟨n, hid, hn, hm⟩ := ih (hrest hc) h
      exact ⟨n, hid, hn, fun m hs => hm m (hs.mono (Store.rows_others _ _))⟩
    · rw [happ] at h
      simp at h

/-- With the last number of the day stored, every attempt fails. -/
lemma attempts_exhausted {k : ℕ} (hw : InWidth c k rows st) (hs : Stored st c.compactDay 999) :
    ∃ e, (attempts c k rows st).1 = .error e ∧
      ∃ i ≤ k, (attempts c k rows st).2 = st.without rows i := by
  obtain ⟨hlen, hd⟩ := compactDay_digits c
  induction k generalizing rows st with
  | zero => exact ⟨_, rfl, 0, le_rfl, rfl⟩
  | succ k ih =>
    obtain ⟨hfree, hrest⟩ := hw
    have h999 := (dayMax_eq hd hlen).mpr hs
    rcases attempts_cases c k rows st with ⟨ha, -⟩ | ⟨hc, happ⟩ | ⟨-, -, e, happ⟩
    · rw [nextRow, h999] at ha
      exact absurd ha (hfree h999)
    · obtain ⟨e, he, i, hi, hst⟩ := ih (hrest hc) (hs.mono (Store.rows_others _ _))
      rw [happ]
      exact ⟨e, he, i + 1, by omega, by rw [Store.without_succ, hst]⟩
    · rw [happ]
      exact ⟨_, rfl, 1, by omega, by rw [Store.without_succ]; rfl⟩

/-- An attempt that is out of width returns an id with four digits. -/
lemma attempts_overflow {k : ℕ} (hw : ¬ InWidth c k rows st) :
    (attempts c k rows st).1 = .ok (ticketId c.compactDay 1000) := by
  induction k generalizing rows st with
  | zero => exact absurd trivial hw
  | succ k ih =>
    rcases attempts_cases c k rows st with ⟨ha, happ⟩ | ⟨hc, happ⟩ | ⟨ha, hc, -⟩
    · rw [happ]
      have h999 : dayMaxTicketNumber st c.compactDay = 999 := by
        by_contra hne
        refine hw ⟨fun h => absurd h hne, fun hc => ?_⟩
        have := ha.2.2.symm.trans hc.2.2
        simp at this
      rw [h999]
    · rw [happ]
      refine ih fun hrest => hw ⟨fun h999 hacc => ?_, fun _ => hrest⟩
      rw [nextRow, h999] at hc
      have := hacc.2.2.symm.trans hc.2.2
      simp at this
    · refine absurd ⟨fun h999 hacc => ?_, fun h => absurd h hc⟩ hw
      rw [nextRow, h999] at ha
      exact ha hacc

end Attempts

/-- What is promised of one allocation: an id that is returned has the format and a number higher
than every ticket of its day, and with the day's numbers used up the call raises and leaves the
store with what other processes wrote. -/
structure Allocated (c : TicketCall) (rows : List (List Row)) (st : Store) : Prop where
  returned : ∀ id, (allocateTicket c rows st).1 = .ok id →
    ticketRe id = true ∧ ticketPrefix c.compactDay <+: id ∧
      ∀ k, Stored st c.compactDay k → k < idNumber c.compactDay id
  exhausted : Stored st c.compactDay 999 →
    ∃ e, (allocateTicket c rows st).1 = .error e ∧
      ∃ i ≤ maxAttempts, (allocateTicket c rows st).2 = st.without rows i

lemma allocated_iff (c : TicketCall) (rows : List (List Row)) (st : Store) :
    Allocated c rows st ↔ InWidth c maxAttempts rows st := by
  obtain ⟨hlen, hd⟩ := compactDay_digits c
  constructor
  · intro h
    by_contra hw
    have hre := (h.returned _ (attempts_overflow hw)).1
    rw [ticketRe_last hlen] at hre
    simp at hre
  · intro hw
    refine ⟨fun id hid => ?_, fun hs => attempts_exhausted hw hs⟩
    obtain ⟨n, rfl, hn, hm⟩ := attempts_returned hw hid
    refine ⟨ticketRe_ticketId hlen hd hn, List.prefix_append _ _, fun k hk => ?_⟩
    rw [idNumber_ticketId]
    exact hm k hk

/-! ### Runs -/

inductive LedgerAction where
  | allocate (c : TicketCall) (rows : List (List Row))
  | written (batch : List Row)
  | marked (inconsistent : Bool)

def step (st : Store) : LedgerAction → Store
  | .allocate c rows => (allocateTicket c rows st).2
  | .written batch => st.others batch
  | .marked b => { st with inconsistent := b }

/-- The action, if it is an allocation, is in width. -/
def StepInWidth (st : Store) : LedgerAction → Prop
  | .allocate c rows => InWidth c maxAttempts rows st
  | _ => True

/-- **Tickets stay well formed** through any number of allocations, of any days and on any ledger,
exactly when no attempt writes the number after the day's last. -/
theorem tickets_well_formed_iff (st : Store) (as : List LedgerAction) :
    (∀ bs c rows, bs ++ [.allocate c rows] <+: as → Allocated c rows (Runs.after step st bs)) ↔
      Runs.Along step StepInWidth st as := by
  rw [Runs.along_iff_cuts]
  constructor
  · intro h bs a hbs
    cases a with
    | allocate c rows => exact (allocated_iff c rows _).mp (h bs c rows hbs)
    | written batch => exact trivial
    | marked b => exact trivial
  · intro h bs c rows hbs
    exact (allocated_iff c rows _).mpr (h bs (.allocate c rows) hbs)

/-- The first of January 2026. -/
def newYear : TicketCall where
  tsUtc := "2026-01-01T00:00:00.000001Z".toList
  source := "paper".toList
  correlationId := "desk".toList
  seat := "desk".toList
  title := "lead".toList
  dated := ⟨"2026".toList, "01".toList, "01".toList, "T00:00:00.000001Z".toList, rfl, rfl, rfl,
    rfl, by simp⟩

/-- A ledger with the ticket `SOL-20260101-999`, as it is written by hand. -/
def lastTaken : Store := { rows := [ticketRow newYear (ticketId newYear.compactDay 999)] }

theorem last_ticket_overflows : ¬ ∀ st as bs c rows,
    bs ++ [.allocate c rows] <+: as → Allocated c rows (Runs.after step st bs) := by
  intro h
  have hall := h lastTaken [.allocate newYear []] [] newYear [] List.prefix_rfl
  obtain ⟨hfree, -⟩ := (allocated_iff newYear [] lastTaken).mp hall
  have hday := compactDay_digits newYear
  have hstored : Stored lastTaken newYear.compactDay 999 :=
    ⟨_, List.mem_singleton_self _, _, rfl, by decide +kernel⟩
  refine hfree ((dayMax_eq hday.2 hday.1).mpr hstored) ?_
  decide +kernel

end Tickets

end PumpGrok
