import PumpGrok.Tools.PumpEvents

/-!
The encoding that the event decoder inverts. A wire event has any bytes where a string or a
flag stands, so that what a decoder refuses can be written down too.
-/

namespace PumpGrok

namespace PumpEvents

open Reader

/-- A sequence of options whose later part has a value or not whatever the first one is. -/
lemma bind_none_iff {α β : Type} {x : Option α} {k : α → Option β} {P : Prop}
    (h : ∀ a, k a = none ↔ P) : (x >>= k) = none ↔ x = none ∨ P := by
  rcases x with - | a
  · simp
  · simpa using h a

abbrev Pubkey : Type := { b : Bytes // b.length = 32 }

/-- The bytes of a string that its length prefix can count. -/
abbrev WireText : Type := { b : Bytes // b.length < 2 ^ 32 }

/-- A string that Borsh can encode. -/
abbrev BorshText : Type := { t : Text // (Bytes.encode t).length < 2 ^ 32 }

def BorshText.wire (t : BorshText) : WireText := ⟨Bytes.encode t.1, t.2⟩

def bit (b : Bool) : UInt8 := if b then 1 else 0

/-- What a flag byte says. -/
def flag (byte : UInt8) : Option Bool := if 1 < byte then none else some (byte = 1)

lemma flag_bit (b : Bool) : flag (bit b) = some b := by
  cases b <;> decide

lemma flag_eq_none_iff {byte : UInt8} : flag byte = none ↔ 1 < byte := by
  unfold flag
  split_ifs with h <;> simp [h]

def encodeU64 (x : UInt64) : Bytes := Bytes.leBytes 8 x.toNat

def encodeI64 (x : Int64) : Bytes := Bytes.leBytes 8 x.toUInt64.toNat

def encodeText (s : WireText) : Bytes := Bytes.leBytes 4 s.1.length ++ s.1

/-! ### Base 58 tells keys apart -/

/-- The value of a digit. -/
def base58Value (c : Char) : ℕ := base58Alphabet.idxOf c

lemma base58Value_digit : ∀ d < 58, base58Value (base58Alphabet.getD d '1') = d := by decide

/-- Reading the digits back gives the number, as the leading ones are zeros. -/
lemma ofDigits_base58 (raw : Bytes) :
    Nat.ofDigits 58 ((base58 raw).reverse.map base58Value) =
      Nat.ofDigits 256 (raw.reverse.map UInt8.toNat) := by
  set n := Nat.ofDigits 256 (raw.reverse.map UInt8.toNat) with hn
  have hdigits : (Nat.digits 58 n).map (base58Value ∘ fun d => base58Alphabet.getD d '1') =
      Nat.digits 58 n := by
    refine (List.map_congr_left fun d hd => ?_).trans (List.map_id _)
    exact base58Value_digit d (Nat.digits_lt_base (by norm_num) hd)
  have hone : base58Value '1' = 0 := by decide
  rw [base58, ← hn]
  simp only [List.reverse_append, List.reverse_reverse, List.map_append, List.map_map, hdigits,
    List.reverse_replicate, List.map_replicate, hone, Nat.ofDigits_append_replicate_zero,
    Nat.ofDigits_digits]

theorem base58_injective {k k' : Pubkey} (h : base58 k.1 = base58 k'.1) : k = k' := by
  have hn : Nat.ofDigits 256 (k.1.reverse.map UInt8.toNat) =
      Nat.ofDigits 256 (k'.1.reverse.map UInt8.toNat) := by
    rw [← ofDigits_base58, ← ofDigits_base58, h]
  have hlt : ∀ b : Bytes, ∀ l ∈ b.reverse.map UInt8.toNat, l < 256 := by
    intro b l hl
    obtain ⟨x, -, rfl⟩ := List.mem_map.mp hl
    exact x.toNat_lt
  have hmap :=
    Nat.ofDigits_inj_of_len_eq (by norm_num) (by simp [k.2, k'.2]) (hlt k.1) (hlt k'.1) hn
  have hrev := List.map_injective_iff.mpr (fun _ _ => UInt8.toNat.inj) hmap
  exact Subtype.ext (List.reverse_injective hrev)

/-! ### Fields -/

abbrev Decodes {α : Type} (m : Reading α) (enc : Bytes) (r : Option α) : Prop :=
  Reader.Decodes Raised.IsDecodeError m enc r

lemma take_decodes {enc : Bytes} {n : ℕ} (h : enc.length = n) :
    Decodes (take n) enc (some enc) := by
  subst h
  exact .take fun _ _ _ => trivial

lemma unpack_decodes {n w : ℕ} (h : n < 256 ^ w) :
    Decodes (unpack w (Bytes.leBytes w n)) [] (some n) := by
  rw [unpack, if_pos (Bytes.length_leBytes w n), Bytes.leNat_leBytes h]
  exact .pure n

lemma u32_decodes {n : ℕ} (h : n < 2 ^ 32) : Decodes u32 (Bytes.leBytes 4 n) (some n) :=
  (take_decodes (Bytes.length_leBytes 4 n)).last (unpack_decodes (by omega))

lemma u64_decodes (x : UInt64) : Decodes u64 (encodeU64 x) (some x) := by
  have hx : x.toNat < 256 ^ 8 := x.toNat_lt
  have h := (unpack_decodes hx).last (f := fun n => pure (UInt64.ofNat n)) (.pure _)
  rw [UInt64.ofNat_toNat] at h
  exact (take_decodes (Bytes.length_leBytes 8 _)).last h

lemma i64_decodes (x : Int64) : Decodes i64 (encodeI64 x) (some x) := by
  have hx : x.toUInt64.toNat < 256 ^ 8 := x.toUInt64.toNat_lt
  have h := (unpack_decodes hx).last (f := fun n => pure (UInt64.ofNat n).toInt64) (.pure _)
  rw [UInt64.ofNat_toNat, Int64.toInt64_toUInt64] at h
  exact (take_decodes (Bytes.length_leBytes 8 _)).last h

lemma pubkey_decodes (k : Pubkey) : Decodes pubkey k.1 (some (base58 k.1)) :=
  (take_decodes k.2).last (.pure _)

/-- What follows the byte of a flag. -/
lemma boolean_rest (byte : UInt8) (s : Reader) :
    (Prog.read Reader.pos >>= fun pos =>
        Prog.raiseIf (1 < byte) (Raised.eventDecode (.invalidBool byte (pos - 1))) >>= fun _ =>
          (pure (byte = 1 : Bool) : Reading Bool)) s =
      if 1 < byte then (.error (.eventDecode (.invalidBool byte (s.pos - 1))), s)
      else (.ok (byte = 1 : Bool), s) := by
  rw [Prog.bind_run_ok (Prog.read_run _ _), Prog.raiseIf_bind_run, Prog.pure_run]

lemma boolean_decodes (byte : UInt8) : Decodes boolean [byte] (flag byte) := by
  have hbyte : Decodes (take 1) [byte] (some [byte]) := take_decodes rfl
  refine hbyte.last ?_
  unfold flag
  split_ifs with h
  · exact .refused fun s => ⟨_, s, (boolean_rest byte s).trans (if_pos h), trivial⟩
  · exact .value fun s => (boolean_rest byte s).trans (if_neg h)

lemma string_decodes (s : WireText) : Decodes string (encodeText s) (Bytes.decode s.1) := by
  refine (u32_decodes s.2).bind_some ((take_decodes rfl).last ?_)
  rcases h : Bytes.decode s.1 with - | text
  · exact .refused fun _ => ⟨_, _, rfl, trivial⟩
  · exact .pure text

/-! ### Events -/

namespace TradeEvent

variable {K S B K' S' B' : Type}

def map (key : K → K') (str : S → S') (bool : B → B') (e : TradeEvent K S B) :
    TradeEvent K' S' B' :=
  { e with
    mint := key e.mint, isBuy := bool e.isBuy, user := key e.user
    feeRecipient := key e.feeRecipient, creator := key e.creator
    trackVolume := bool e.trackVolume, ixName := str e.ixName, mayhemMode := bool e.mayhemMode }

/-- The event, where each of its flags and its string says something. -/
def parse (e : TradeEvent Pubkey WireText UInt8) : Option (TradeEvent Text Text Bool) := do
  let isBuy ← flag e.isBuy
  let trackVolume ← flag e.trackVolume
  let ixName ← Bytes.decode e.ixName.1
  let mayhemMode ← flag e.mayhemMode
  return { e with
    mint := base58 e.mint.1, isBuy, user := base58 e.user.1
    feeRecipient := base58 e.feeRecipient.1, creator := base58 e.creator.1
    trackVolume, ixName, mayhemMode }

def encode (e : TradeEvent Pubkey WireText UInt8) : Bytes :=
  List.flatten [
    e.mint.1, encodeU64 e.solAmount, encodeU64 e.tokenAmount, [e.isBuy], e.user.1,
    encodeI64 e.timestamp, encodeU64 e.virtualSolReserves, encodeU64 e.virtualTokenReserves,
    encodeU64 e.realSolReserves, encodeU64 e.realTokenReserves, e.feeRecipient.1,
    encodeU64 e.feeBasisPoints, encodeU64 e.fee, e.creator.1,
    encodeU64 e.creatorFeeBasisPoints, encodeU64 e.creatorFee, [e.trackVolume],
    encodeU64 e.totalUnclaimedTokens, encodeU64 e.totalClaimedTokens,
    encodeU64 e.currentSolVolume, encodeI64 e.lastUpdateTimestamp, encodeText e.ixName,
    [e.mayhemMode]]

theorem decodes (e : TradeEvent Pubkey WireText UInt8) : Decodes decodeTrade e.encode e.parse := by
  unfold decodeTrade encode parse
  simp only [List.flatten_cons, List.flatten_nil]
  refine .bind_some (pubkey_decodes e.mint) ?_
  refine .bind_some (u64_decodes e.solAmount) (.bind_some (u64_decodes e.tokenAmount) ?_)
  refine .bind (boolean_decodes e.isBuy) fun isBuy _ => ?_
  refine .bind_some (pubkey_decodes e.user) (.bind_some (i64_decodes e.timestamp) ?_)
  refine .bind_some (u64_decodes e.virtualSolReserves) ?_
  refine .bind_some (u64_decodes e.virtualTokenReserves) ?_
  refine .bind_some (u64_decodes e.realSolReserves) ?_
  refine .bind_some (u64_decodes e.realTokenReserves) ?_
  refine .bind_some (pubkey_decodes e.feeRecipient) ?_
  refine .bind_some (u64_decodes e.feeBasisPoints) (.bind_some (u64_decodes e.fee) ?_)
  refine .bind_some (pubkey_decodes e.creator) ?_
  refine .bind_some (u64_decodes e.creatorFeeBasisPoints) ?_
  refine .bind_some (u64_decodes e.creatorFee) ?_
  refine .bind (boolean_decodes e.trackVolume) fun trackVolume _ => ?_
  refine .bind_some (u64_decodes e.totalUnclaimedTokens) ?_
  refine .bind_some (u64_decodes e.totalClaimedTokens) ?_
  refine .bind_some (u64_decodes e.currentSolVolume) ?_
  refine .bind_some (i64_decodes e.lastUpdateTimestamp) ?_
  refine .bind (string_decodes e.ixName) fun ixName _ => ?_
  exact .bind (boolean_decodes e.mayhemMode) fun mayhemMode _ => .pure _

end TradeEvent

namespace CreateEvent

variable {K S K' S' : Type}

def map (key : K → K') (str : S → S') (e : CreateEvent K S) : CreateEvent K' S' :=
  { e with
    name := str e.name, symbol := str e.symbol, uri := str e.uri, mint := key e.mint
    bondingCurve := key e.bondingCurve, user := key e.user, creator := key e.creator }

/-- The event, where each of its strings says something. -/
def parse (e : CreateEvent Pubkey WireText) : Option (CreateEvent Text Text) := do
  let name ← Bytes.decode e.name.1
  let symbol ← Bytes.decode e.symbol.1
  let uri ← Bytes.decode e.uri.1
  return { e with
    name, symbol, uri, mint := base58 e.mint.1, bondingCurve := base58 e.bondingCurve.1
    user := base58 e.user.1, creator := base58 e.creator.1 }

def encode (e : CreateEvent Pubkey WireText) : Bytes :=
  List.flatten [
    encodeText e.name, encodeText e.symbol, encodeText e.uri, e.mint.1, e.bondingCurve.1,
    e.user.1, e.creator.1, encodeI64 e.timestamp, encodeU64 e.virtualTokenReserves,
    encodeU64 e.virtualSolReserves, encodeU64 e.realTokenReserves, encodeU64 e.tokenTotalSupply]

theorem decodes (e : CreateEvent Pubkey WireText) : Decodes decodeCreate e.encode e.parse := by
  unfold decodeCreate encode parse
  simp only [List.flatten_cons, List.flatten_nil]
  refine .bind (string_decodes e.name) fun name _ => ?_
  refine .bind (string_decodes e.symbol) fun symbol _ => ?_
  refine .bind (string_decodes e.uri) fun uri _ => ?_
  refine .bind_some (pubkey_decodes e.mint) (.bind_some (pubkey_decodes e.bondingCurve) ?_)
  refine .bind_some (pubkey_decodes e.user) (.bind_some (pubkey_decodes e.creator) ?_)
  refine .bind_some (i64_decodes e.timestamp) ?_
  refine .bind_some (u64_decodes e.virtualTokenReserves) ?_
  refine .bind_some (u64_decodes e.virtualSolReserves) ?_
  refine .bind_some (u64_decodes e.realTokenReserves) ?_
  exact .bind_some (u64_decodes e.tokenTotalSupply) (.pure _)

end CreateEvent

namespace CompleteEvent

variable {K K' : Type}

def map (key : K → K') (e : CompleteEvent K) : CompleteEvent K' :=
  { e with user := key e.user, mint := key e.mint, bondingCurve := key e.bondingCurve }

def encode (e : CompleteEvent Pubkey) : Bytes :=
  List.flatten [e.user.1, e.mint.1, e.bondingCurve.1, encodeI64 e.timestamp]

theorem decodes (e : CompleteEvent Pubkey) :
    Decodes decodeComplete e.encode (some (e.map fun k => base58 k.1)) := by
  unfold decodeComplete encode map
  simp only [List.flatten_cons, List.flatten_nil]
  refine .bind_some (pubkey_decodes e.user) (.bind_some (pubkey_decodes e.mint) ?_)
  refine .bind_some (pubkey_decodes e.bondingCurve) ?_
  exact .bind_some (i64_decodes e.timestamp) (.pure _)

end CompleteEvent

namespace CompletePumpAmmMigrationEvent

variable {K K' : Type}

def map (key : K → K') (e : CompletePumpAmmMigrationEvent K) : CompletePumpAmmMigrationEvent K' :=
  { e with
    user := key e.user, mint := key e.mint, bondingCurve := key e.bondingCurve
    pool := key e.pool }

def encode (e : CompletePumpAmmMigrationEvent Pubkey) : Bytes :=
  List.flatten [
    e.user.1, e.mint.1, encodeU64 e.mintAmount, encodeU64 e.solAmount,
    encodeU64 e.poolMigrationFee, e.bondingCurve.1, encodeI64 e.timestamp, e.pool.1]

theorem decodes (e : CompletePumpAmmMigrationEvent Pubkey) :
    Decodes decodeMigration e.encode (some (e.map fun k => base58 k.1)) := by
  unfold decodeMigration encode map
  simp only [List.flatten_cons, List.flatten_nil]
  refine .bind_some (pubkey_decodes e.user) (.bind_some (pubkey_decodes e.mint) ?_)
  refine .bind_some (u64_decodes e.mintAmount) (.bind_some (u64_decodes e.solAmount) ?_)
  refine .bind_some (u64_decodes e.poolMigrationFee) ?_
  refine .bind_some (pubkey_decodes e.bondingCurve) (.bind_some (i64_decodes e.timestamp) ?_)
  exact .bind_some (pubkey_decodes e.pool) (.pure _)

end CompletePumpAmmMigrationEvent

namespace PostCompleteBuyEvent

variable {K K' : Type}

def map (key : K → K') (e : PostCompleteBuyEvent K) : PostCompleteBuyEvent K' :=
  { e with user := key e.user, mint := key e.mint }

def encode (e : PostCompleteBuyEvent Pubkey) : Bytes :=
  List.flatten [
    e.user.1, e.mint.1, encodeU64 e.solAmount, encodeU64 e.tokenAmount, encodeI64 e.timestamp]

theorem decodes (e : PostCompleteBuyEvent Pubkey) :
    Decodes decodePostCompleteBuy e.encode (some (e.map fun k => base58 k.1)) := by
  unfold decodePostCompleteBuy encode map
  simp only [List.flatten_cons, List.flatten_nil]
  refine .bind_some (pubkey_decodes e.user) (.bind_some (pubkey_decodes e.mint) ?_)
  refine .bind_some (u64_decodes e.solAmount) (.bind_some (u64_decodes e.tokenAmount) ?_)
  exact .bind_some (i64_decodes e.timestamp) (.pure _)

end PostCompleteBuyEvent

namespace PumpEvent

variable {K S B K' S' B' : Type}

def kind : PumpEvent K S B → Kind
  | .trade _ => .trade
  | .create _ => .create
  | .complete _ => .complete
  | .migration _ => .migration
  | .postCompleteBuy _ => .postCompleteBuy

def map (key : K → K') (str : S → S') (bool : B → B') : PumpEvent K S B → PumpEvent K' S' B'
  | .trade e => .trade (e.map key str bool)
  | .create e => .create (e.map key str)
  | .complete e => .complete (e.map key)
  | .migration e => .migration (e.map key)
  | .postCompleteBuy e => .postCompleteBuy (e.map key)

def flags : PumpEvent K S B → List B
  | .trade e => [e.isBuy, e.trackVolume, e.mayhemMode]
  | _ => []

def texts : PumpEvent K S B → List S
  | .trade e => [e.ixName]
  | .create e => [e.name, e.symbol, e.uri]
  | _ => []

def parse : PumpEvent Pubkey WireText UInt8 → Option (PumpEvent Text Text Bool)
  | .trade e => do return .trade (← e.parse)
  | .create e => do return .create (← e.parse)
  | .complete e => some (.complete (e.map fun k => base58 k.1))
  | .migration e => some (.migration (e.map fun k => base58 k.1))
  | .postCompleteBuy e => some (.postCompleteBuy (e.map fun k => base58 k.1))

/-- The fields of an event, one after the other. -/
def fields : PumpEvent Pubkey WireText UInt8 → Bytes
  | .trade e => e.encode
  | .create e => e.encode
  | .complete e => e.encode
  | .migration e => e.encode
  | .postCompleteBuy e => e.encode

def encode (e : PumpEvent Pubkey WireText UInt8) : Bytes := e.kind.discriminator ++ e.fields

/-- An event as it goes on the wire. -/
def wire (e : PumpEvent Pubkey BorshText Bool) : PumpEvent Pubkey WireText UInt8 :=
  e.map id BorshText.wire bit

/-- An event as the program reads it. -/
def rendered (e : PumpEvent Pubkey BorshText Bool) : PumpEvent Text Text Bool :=
  e.map (fun k => base58 k.1) Subtype.val id

theorem decodes (e : PumpEvent Pubkey WireText UInt8) :
    Decodes e.kind.decoder e.fields e.parse := by
  cases e with
  | trade e =>
    have h := e.decodes.bind (f := fun x => pure (PumpEvent.trade x)) fun x _ => .pure _
    rwa [List.append_nil] at h
  | create e =>
    have h := e.decodes.bind
      (f := fun x => (pure (PumpEvent.create x) : Reading (PumpEvent Text Text Bool)))
      fun x _ => .pure _
    rwa [List.append_nil] at h
  | complete e => exact e.decodes.last (.pure _)
  | migration e => exact e.decodes.last (.pure _)
  | postCompleteBuy e => exact e.decodes.last (.pure _)

/-- A wire event says something unless one of its flags is no bit or one of its strings is not
UTF-8. -/
lemma parse_eq_none_iff (e : PumpEvent Pubkey WireText UInt8) :
    e.parse = none ↔ (∃ b ∈ e.flags, 1 < b) ∨ ∃ s ∈ e.texts, Bytes.decode s.1 = none := by
  cases e with
  | trade e =>
    have h : (PumpEvent.trade e).parse = none ↔ flag e.isBuy = none ∨ flag e.trackVolume = none ∨
        Bytes.decode e.ixName.1 = none ∨ flag e.mayhemMode = none := by
      refine (bind_none_iff (P := False) fun _ => by simp).trans ?_
      rw [or_false]
      refine bind_none_iff fun _ => bind_none_iff fun _ => bind_none_iff fun _ => ?_
      exact (bind_none_iff (P := False) fun _ => by simp).trans (or_false _).to_iff
    rw [h]
    simp only [flag_eq_none_iff, flags, texts, List.mem_cons, List.not_mem_nil, or_false,
      exists_eq_or_imp, exists_eq_left]
    tauto
  | create e =>
    have h : (PumpEvent.create e).parse = none ↔ Bytes.decode e.name.1 = none ∨
        Bytes.decode e.symbol.1 = none ∨ Bytes.decode e.uri.1 = none := by
      refine (bind_none_iff (P := False) fun _ => by simp).trans ?_
      rw [or_false]
      refine bind_none_iff fun _ => bind_none_iff fun _ => ?_
      exact (bind_none_iff (P := False) fun _ => by simp).trans (or_false _).to_iff
    rw [h]
    simp [flags, texts]
  | complete e => simp [parse, flags, texts]
  | migration e => simp [parse, flags, texts]
  | postCompleteBuy e => simp [parse, flags, texts]

lemma parse_wire (e : PumpEvent Pubkey BorshText Bool) : e.wire.parse = some e.rendered := by
  cases e with
  | trade e =>
    simp [wire, rendered, map, parse, TradeEvent.map, TradeEvent.parse, flag_bit, BorshText.wire,
      Bytes.decode_encode]
  | create e =>
    simp [wire, rendered, map, parse, CreateEvent.map, CreateEvent.parse, BorshText.wire,
      Bytes.decode_encode]
  | complete e => rfl
  | migration e => rfl
  | postCompleteBuy e => rfl

end PumpEvent

lemma Kind.length_discriminator (k : Kind) : k.discriminator.length = 8 := by
  cases k <;> rfl

lemma decoders_discriminator (k : Kind) : decoders k.discriminator = some k := by
  cases k <;> decide

/-! ### Reading within the payload -/

abbrev Bounded {α : Type} (m : Reading α) : Prop := Reader.Bounded Raised.IsDecodeError m

lemma take_bounded (n : ℕ) : Bounded (take n) := .take (fun _ _ _ => trivial) n

/-- The bytes taken for a word are as many as it has, so that unpacking does not raise. -/
lemma word_bounded {α : Type} (w : ℕ) {f : ℕ → Reading α} (hf : ∀ n, Bounded (f n)) :
    Bounded (do f (← unpack w (← take w))) :=
  (take_bounded w).bind_of fun chunk s s' h => by
    rw [unpack, if_pos (take_length h)]
    exact .bind (.pure _) hf

lemma u32_bounded : Bounded u32 := by
  refine (take_bounded 4).bind_of fun chunk s s' h => ?_
  rw [unpack, if_pos (take_length h)]
  exact .pure _

lemma u64_bounded : Bounded u64 := word_bounded 8 fun _ => .pure _

lemma i64_bounded : Bounded i64 := word_bounded 8 fun _ => .pure _

lemma pubkey_bounded : Bounded pubkey := (take_bounded 32).bind fun _ => .pure _

lemma string_bounded : Bounded string := by
  refine u32_bounded.bind fun length => (take_bounded length).bind fun raw => ?_
  split
  · exact .pure _
  · exact .raise trivial

lemma boolean_bounded : Bounded boolean := by
  refine (take_bounded 1).bind_of fun chunk s s' h => ?_
  rcases chunk with - | ⟨byte, rest⟩
  · exact absurd (take_length h) (by simp)
  · exact .bind .position fun pos => .bind (.raiseIf fun _ => trivial) fun _ => .pure _

lemma decodeTrade_bounded : Bounded decodeTrade := by
  unfold decodeTrade
  refine pubkey_bounded.bind fun _ => u64_bounded.bind fun _ => u64_bounded.bind fun _ => ?_
  refine boolean_bounded.bind fun _ => pubkey_bounded.bind fun _ => i64_bounded.bind fun _ => ?_
  refine u64_bounded.bind fun _ => u64_bounded.bind fun _ => u64_bounded.bind fun _ => ?_
  refine u64_bounded.bind fun _ => pubkey_bounded.bind fun _ => u64_bounded.bind fun _ => ?_
  refine u64_bounded.bind fun _ => pubkey_bounded.bind fun _ => u64_bounded.bind fun _ => ?_
  refine u64_bounded.bind fun _ => boolean_bounded.bind fun _ => u64_bounded.bind fun _ => ?_
  refine u64_bounded.bind fun _ => u64_bounded.bind fun _ => i64_bounded.bind fun _ => ?_
  exact string_bounded.bind fun _ => boolean_bounded.bind fun _ => .pure _

lemma decodeCreate_bounded : Bounded decodeCreate := by
  unfold decodeCreate
  refine string_bounded.bind fun _ => string_bounded.bind fun _ => string_bounded.bind fun _ => ?_
  refine pubkey_bounded.bind fun _ => pubkey_bounded.bind fun _ => pubkey_bounded.bind fun _ => ?_
  refine pubkey_bounded.bind fun _ => i64_bounded.bind fun _ => u64_bounded.bind fun _ => ?_
  exact u64_bounded.bind fun _ => u64_bounded.bind fun _ => u64_bounded.bind fun _ => .pure _

lemma decodeComplete_bounded : Bounded decodeComplete := by
  unfold decodeComplete
  refine pubkey_bounded.bind fun _ => pubkey_bounded.bind fun _ => pubkey_bounded.bind fun _ => ?_
  exact i64_bounded.bind fun _ => .pure _

lemma decodeMigration_bounded : Bounded decodeMigration := by
  unfold decodeMigration
  refine pubkey_bounded.bind fun _ => pubkey_bounded.bind fun _ => u64_bounded.bind fun _ => ?_
  refine u64_bounded.bind fun _ => u64_bounded.bind fun _ => pubkey_bounded.bind fun _ => ?_
  exact i64_bounded.bind fun _ => pubkey_bounded.bind fun _ => .pure _

lemma decodePostCompleteBuy_bounded : Bounded decodePostCompleteBuy := by
  unfold decodePostCompleteBuy
  refine pubkey_bounded.bind fun _ => pubkey_bounded.bind fun _ => u64_bounded.bind fun _ => ?_
  exact u64_bounded.bind fun _ => i64_bounded.bind fun _ => .pure _

theorem decoder_bounded (k : Kind) : Bounded k.decoder := by
  cases k with
  | trade => exact decodeTrade_bounded.bind fun _ => .pure _
  | create => exact decodeCreate_bounded.bind fun _ => .pure _
  | complete => exact decodeComplete_bounded.bind fun _ => .pure _
  | migration => exact decodeMigration_bounded.bind fun _ => .pure _
  | postCompleteBuy => exact decodePostCompleteBuy_bounded.bind fun _ => .pure _

/-! ### Whole payloads -/

/-- Decoding refuses, with one of its own errors. -/
def Refuses {α : Type} (r : Except Raised α) : Prop := ∃ e, r = .error (.eventDecode e)

lemma refuses_of_raises {α : Type} {x : Except Raised α × Reader}
    (h : Raises Raised.IsDecodeError x) : Refuses x.1 := by
  obtain ⟨e, s, rfl, he⟩ := h
  cases e with
  | eventDecode e => exact ⟨e, rfl⟩
  | structError => exact he.elim
  | indexError => exact he.elim

lemma decodeEvent_discriminator (k : Kind) (rest : Bytes) :
    decodeEvent (k.discriminator ++ rest) = (k.decoder ⟨rest, 0⟩).1 := by
  have h8 := k.length_discriminator
  have htake : (k.discriminator ++ rest).take 8 = k.discriminator := by
    rw [← h8, List.take_left]
  have hdrop : (k.discriminator ++ rest).drop 8 = rest := by
    rw [← h8, List.drop_left]
  rw [decodeEvent, if_neg (by simp [h8]), htake, decoders_discriminator, hdrop]

/-- What a payload that starts with the encoding of a wire event decodes to. -/
theorem decodeEvent_encode (e : PumpEvent Pubkey WireText UInt8) (suffix : Bytes) :
    (∀ ev, e.parse = some ev → decodeEvent (e.encode ++ suffix) = .ok ev) ∧
    (e.parse = none → Refuses (decodeEvent (e.encode ++ suffix))) := by
  rw [PumpEvent.encode, List.append_assoc, decodeEvent_discriminator]
  constructor
  · intro ev hev
    have h := e.decodes.whole ev hev [] suffix
    simp only [List.nil_append, List.length_nil] at h
    rw [h]
  · intro hn
    exact refuses_of_raises (e.decodes.bad hn [] suffix)

theorem decodeEvent_cut (e : PumpEvent Pubkey WireText UInt8) {p : Bytes} (hp : p <+: e.encode)
    (hne : p ≠ e.encode) : Refuses (decodeEvent p) := by
  have h8 := e.kind.length_discriminator
  by_cases hlt : p.length < 8
  · rw [decodeEvent, if_pos hlt]
    exact ⟨_, rfl⟩
  · obtain ⟨q, rfl⟩ : e.kind.discriminator <+: p :=
      List.prefix_of_prefix_length_le (List.prefix_append _ _) hp (by omega)
    have hq : q <+: e.fields := (List.prefix_append_right_inj _).mp hp
    have hqne : q ≠ e.fields := by
      rintro rfl
      exact hne rfl
    rw [decodeEvent_discriminator]
    exact refuses_of_raises (e.decodes.cut [] q hq hqne)

/-- Whatever the bytes, decoding refuses or returns what a prefix of them says. -/
theorem decodeEvent_total (raw : Bytes) :
    Refuses (decodeEvent raw) ∨ ∃ ev, ∃ n ≤ raw.length,
      ∀ raw', raw'.take n = raw.take n → decodeEvent raw' = .ok ev := by
  by_cases hlt : raw.length < 8
  · left
    rw [decodeEvent, if_pos hlt]
    exact ⟨_, rfl⟩
  rcases hk : decoders (raw.take 8) with - | kind
  · left
    rw [decodeEvent, if_neg hlt, hk]
    exact ⟨_, rfl⟩
  have hdec : decodeEvent raw = (kind.decoder ⟨raw.drop 8, 0⟩).1 := by
    rw [decodeEvent, if_neg hlt, hk]
  have hb := decoder_bounded kind
  have hpos : (kind.decoder ⟨raw.drop 8, 0⟩).2.pos ≤ (raw.drop 8).length :=
    (hb.pos ⟨raw.drop 8, 0⟩ (Nat.zero_le _)).2
  rcases hr : (kind.decoder ⟨raw.drop 8, 0⟩).1 with err | ev
  · left
    rw [hdec]
    refine refuses_of_raises ⟨err, (kind.decoder ⟨raw.drop 8, 0⟩).2, ?_, ?_⟩
    · rw [← hr]
    · exact hb.error _ _ (Nat.zero_le _) hr
  · right
    have hlen : (raw.drop 8).length = raw.length - 8 := List.length_drop
    refine ⟨ev, 8 + (kind.decoder ⟨raw.drop 8, 0⟩).2.pos, by omega, fun raw' htake => ?_⟩
    have h8 : raw'.take 8 = raw.take 8 := by
      have := congrArg (List.take 8) htake
      rwa [List.take_take, List.take_take, min_eq_left (by omega)] at this
    have hlt' : ¬ raw'.length < 8 := by
      have := congrArg List.length h8
      simp only [List.length_take] at this
      omega
    have hrest : (raw'.drop 8).take (kind.decoder ⟨raw.drop 8, 0⟩).2.pos =
        (raw.drop 8).take (kind.decoder ⟨raw.drop 8, 0⟩).2.pos := by
      have := congrArg (List.drop 8) htake
      rwa [List.drop_take, List.drop_take, Nat.add_sub_cancel_left] at this
    have hsame : (kind.decoder ⟨raw'.drop 8, 0⟩).1 = .ok ev :=
      congrArg Prod.fst (hb.same ⟨raw.drop 8, 0⟩ ev (Nat.zero_le _) hr (raw'.drop 8) hrest)
    rw [decodeEvent, if_neg hlt', h8, hk]
    exact hsame

/-- **The decoder inverts the encoding.** Whatever follows it, an encoded event decodes to its
fields, and distinct keys stay distinct. Cut short, or with a flag that is no bit or a string
that is not UTF-8, it is refused. On any bytes the decoder raises nothing but its own errors,
and what it returns rests on bytes it was given. -/
theorem decodeEvent_inverts :
    (∀ (e : PumpEvent Pubkey BorshText Bool) (suffix : Bytes),
      decodeEvent (e.wire.encode ++ suffix) = .ok e.rendered) ∧
    (∀ k k' : Pubkey, k ≠ k' → base58 k.1 ≠ base58 k'.1) ∧
    (∀ (e : PumpEvent Pubkey BorshText Bool) (p : Bytes), p <+: e.wire.encode →
      p ≠ e.wire.encode → Refuses (decodeEvent p)) ∧
    (∀ (e : PumpEvent Pubkey WireText UInt8) (suffix : Bytes),
      ((∃ b ∈ e.flags, 1 < b) ∨ ∃ s ∈ e.texts, Bytes.decode s.1 = none) →
        Refuses (decodeEvent (e.encode ++ suffix))) ∧
    (∀ raw : Bytes, Refuses (decodeEvent raw) ∨ ∃ ev, ∃ n ≤ raw.length,
      ∀ raw', raw'.take n = raw.take n → decodeEvent raw' = .ok ev) ∧
    ∀ (b64decode : Text → Option Bytes) (encoded : Text),
      Refuses (decodeProgramData b64decode encoded) ∨
        ∃ ev, decodeProgramData b64decode encoded = .ok ev := by
  refine ⟨fun e suffix => ?_, fun k k' hne h => hne (base58_injective h),
    fun e p hp hne => decodeEvent_cut e.wire hp hne, fun e suffix hbad => ?_, decodeEvent_total,
    fun b64decode encoded => ?_⟩
  · exact (decodeEvent_encode e.wire suffix).1 _ e.parse_wire
  · exact (decodeEvent_encode e suffix).2 (e.parse_eq_none_iff.mpr hbad)
  · unfold decodeProgramData
    rcases b64decode encoded with - | raw
    · exact .inl ⟨_, rfl⟩
    · rcases decodeEvent_total raw with h | ⟨ev, n, -, h⟩
      · exact .inl h
      · exact .inr ⟨ev, h raw rfl⟩

end PumpEvents

end PumpGrok
