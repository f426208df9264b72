/-
# What a payload is read as

Every payload is read as one of four things (`Message.Verdict`): as too short for its fixed part,
as holding a text that is none, as a sync message without its marker, or as the message that it
lays out. `Message.Layout` is the grammar: it says field by field what the payload of a message
consists of, and nothing of how it is read. A payload is read as a message if and only if it lays
out this message (`Message.read_eq_ok_iff`), and each refusal has exactly one cause
(`Message.read_classified`).

Key definitions: `Kind.fixedLength`, `Kind.text?`, `Message.Word`, `Message.Layout`,
`Message.Verdict`.
Key theorems: `Message.verdict_read`, `Message.read_of_layout`, `Message.read_eq_ok_iff`,
`Message.read_classified`.
-/
import FlightLink.Proofs.Bytes.Utf8
import FlightLink.Proofs.Log.Bounds

namespace FlightLink
namespace Log

open LittleEndian (toUInt16 toUInt64)

/-! ### The parts of a payload -/

/-- The length of a length byte and the key it announces; at least that of the byte. -/
def keyedLength : Bytes → Nat
  | [] => 1
  | size :: _ => 1 + size.toNat

/-- The length of the part of a payload that its kind asks for. A key counts with the length that
its length byte gives, if this byte is there. -/
def Kind.fixedLength : Kind → Bytes → Nat
  | .flagBits, _ => 40
  | .format, _ => 0
  | .info, payload => keyedLength payload
  | .infoMultiple, payload => 1 + keyedLength (payload.drop 1)
  | .parameter, payload => keyedLength payload
  | .addLogged, _ => 3
  | .removeLogged, _ => 2
  | .data, _ => 2
  | .logging, _ => 9
  | .dropout, _ => 2
  | .sync, _ => 8

/-- The key behind its length byte. -/
def keyField : Bytes → Bytes
  | [] => []
  | size :: rest => rest.take size.toNat

/-- The bytes of the text in a payload: all of them, the key, or those behind the fixed part. -/
def Kind.text? : Kind → Bytes → Option Bytes
  | .format, payload => some payload
  | .info, payload => some (keyField payload)
  | .infoMultiple, payload => some (keyField (payload.drop 1))
  | .parameter, payload => some (keyField payload)
  | .addLogged, payload => some (payload.drop 3)
  | .logging, payload => some (payload.drop 9)
  | _, _ => none

namespace Message

/-- The bytes are so many, and a number in little-endian order. -/
def Word (width : Nat) (bytes : Bytes) (n : Nat) : Prop :=
  bytes.length = width ∧ LittleEndian.decode bytes = n

/-- How messages are laid out. A length byte or a word says the number that it has to, a text is
its bytes, and bytes behind the last field are not read. -/
inductive Layout : Bytes → Message → Prop where
  | flagBits (flags : FlagBits) {first second third : Bytes} (unread : Bytes) :
    Word 8 first flags.appendedOffsets[0].toNat → Word 8 second flags.appendedOffsets[1].toNat →
    Word 8 third flags.appendedOffsets[2].toNat →
    Layout (flags.compatible.toList ++ (flags.incompatible.toList ++
      (first ++ (second ++ (third ++ unread))))) (.flagBits flags)
  | format (definition : String) : Layout (Utf8.encode definition) (.format definition)
  | info {size : UInt8} (key : String) (value : Bytes) :
    size.toNat = (Utf8.encode key).length →
    Layout (size :: (Utf8.encode key ++ value)) (.info key value)
  | infoMultiple (mark : UInt8) {size : UInt8} (key : String) (value : Bytes) :
    size.toNat = (Utf8.encode key).length →
    Layout (mark :: size :: (Utf8.encode key ++ value)) (.infoMultiple (mark ≠ 0) key value)
  | parameter {size : UInt8} (key : String) (value : Bytes) :
    size.toNat = (Utf8.encode key).length →
    Layout (size :: (Utf8.encode key ++ value)) (.parameter key value)
  | addLogged (multiId : UInt8) {id : Bytes} (messageId : UInt16) (name : String) :
    Word 2 id messageId.toNat →
    Layout (multiId :: (id ++ Utf8.encode name)) (.addLogged multiId messageId name)
  | removeLogged {id : Bytes} (messageId : UInt16) (unread : Bytes) :
    Word 2 id messageId.toNat → Layout (id ++ unread) (.removeLogged messageId)
  | data {id : Bytes} (messageId : UInt16) (content : Bytes) :
    Word 2 id messageId.toNat → Layout (id ++ content) (.data messageId content)
  | logging (level : UInt8) {time : Bytes} (timestamp : UInt64) (text : String) :
    Word 8 time timestamp.toNat →
    Layout (level :: (time ++ Utf8.encode text)) (.logging (Level.ofByte level) timestamp text)
  | dropout {time : Bytes} (duration : UInt16) (unread : Bytes) :
    Word 2 time duration.toNat → Layout (time ++ unread) (.dropout duration)
  | sync (unread : Bytes) : Layout (syncMagic ++ unread) .sync

/-- What a payload is read as, and why. -/
inductive Verdict (kind : Kind) (payload : Bytes) : Except Fault Message → Prop where
  | short (actual minimum : Nat) : payload.length < kind.fixedLength payload →
    Verdict kind payload (.error (.notEnoughData actual minimum))
  | illegible {field : Bytes} (fault : Utf8.Fault) : kind.fixedLength payload ≤ payload.length →
    kind.text? payload = some field → ¬ Utf8.Valid field →
    Verdict kind payload (.error (.invalidText fault))
  | unmarked : kind.fixedLength payload ≤ payload.length → kind.text? payload = none →
    kind = .sync → payload.take 8 ≠ syncMagic → Verdict kind payload (.error .wrongSyncMagic)
  | message {m : Message} : kind.fixedLength payload ≤ payload.length →
    (∀ field, kind.text? payload = some field → Utf8.Valid field) →
    (kind = .sync → payload.take 8 = syncMagic) → m.kind = kind → Layout payload m →
    Verdict kind payload (.ok m)

/-! ### Words and texts -/

theorem word_toUInt16 {bytes : Bytes} (h : 2 ≤ bytes.length) :
    Word 2 (bytes.take 2) (toUInt16 bytes).toNat := by
  refine ⟨List.length_take_of_le h, ?_⟩
  exact (UInt16.toNat_ofNat_of_lt' (LittleEndian.encode_decode_take h).1).symm

theorem word_toUInt64 {bytes : Bytes} (h : 8 ≤ bytes.length) :
    Word 8 (bytes.take 8) (toUInt64 bytes).toNat := by
  refine ⟨List.length_take_of_le h, ?_⟩
  exact (UInt64.toNat_ofNat_of_lt' (LittleEndian.encode_decode_take h).1).symm

/-- The bytes of a word are known from its number. -/
theorem Word.eq_ofUInt16 {bytes : Bytes} {n : UInt16} (h : Word 2 bytes n.toNat) :
    bytes = LittleEndian.ofUInt16 n := by
  have he := LittleEndian.encode_decode bytes
  rw [h.1, h.2] at he
  exact he.symm

theorem Word.eq_ofUInt64 {bytes : Bytes} {n : UInt64} (h : Word 8 bytes n.toNat) :
    bytes = LittleEndian.ofUInt64 n := by
  have he := LittleEndian.encode_decode bytes
  rw [h.1, h.2] at he
  exact he.symm

/-- A field is read as the text whose bytes it is, unless it is not valid. -/
theorem readText_cases (field : Bytes) :
    (∃ text, Utf8.encode text = field ∧ readText field = .ok text) ∨
      ¬ Utf8.Valid field ∧ ∃ fault, readText field = .error (.invalidText fault) := by
  unfold readText
  cases hd : Utf8.decode field with
  | ok text => exact .inl ⟨text, Utf8.encode_of_decode hd, rfl⟩
  | error fault => exact .inr ⟨(Utf8.decode_eq_error_iff.mp hd).1, fault, rfl⟩

/-- What is left is to read a text. -/
theorem verdict_text {kind : Kind} {payload field : Bytes} {f : String → Message}
    (hlength : kind.fixedLength payload ≤ payload.length) (hfield : kind.text? payload = some field)
    (hsync : kind ≠ .sync)
    (hf : ∀ text, Utf8.encode text = field → (f text).kind = kind ∧ Layout payload (f text)) :
    Verdict kind payload (readText field >>= fun text => .ok (f text)) := by
  rcases readText_cases field with ⟨text, htext, hread⟩ | ⟨hinvalid, fault, hread⟩
  · rw [hread]
    obtain ⟨hkind, hlayout⟩ := hf text htext
    refine .message hlength (fun other hother => ?_) (fun h => absurd h hsync) hkind hlayout
    rw [hfield] at hother
    cases hother
    exact Utf8.valid_iff.mpr ⟨text, htext⟩
  · rw [hread]
    exact .illegible fault hlength hfield hinvalid

/-- There is nothing left to go wrong. -/
theorem verdict_ok {kind : Kind} {payload : Bytes} {m : Message}
    (hlength : kind.fixedLength payload ≤ payload.length) (htext : kind.text? payload = none)
    (hsync : kind ≠ .sync) (hkind : m.kind = kind) (hlayout : Layout payload m) :
    Verdict kind payload (.ok m) := by
  refine .message hlength (fun field hfield => ?_) (fun h => absurd h hsync) hkind hlayout
  rw [htext] at hfield
  cases hfield

/-! ### Keys -/

theorem readKeyed_short {bytes : Bytes} (h : bytes.length < keyedLength bytes) :
    readKeyed bytes = .error (.notEnoughData bytes.length (keyedLength bytes)) := by
  cases bytes with
  | nil => rfl
  | cons size rest =>
    have hneed : need (1 + size.toNat) (size :: rest) =
        .error (.notEnoughData (size :: rest).length (1 + size.toNat)) := need_of_lt h
    show (need (1 + size.toNat) (size :: rest) >>= _) = _
    rw [hneed]
    rfl

/-- With all its bytes there, a key is read unless it is no text. -/
theorem readKeyed_cons {size : UInt8} {rest : Bytes} (h : size.toNat ≤ rest.length) :
    readKeyed (size :: rest) =
      (readText (rest.take size.toNat) >>= fun key => .ok (key, rest.drop size.toNat)) := by
  have hneed : need (1 + size.toNat) (size :: rest) = .ok () :=
    need_of_le (by rw [List.length_cons]; omega)
  show (need (1 + size.toNat) (size :: rest) >>= _) = _
  rw [hneed, Nat.add_comm 1]
  rfl

/-- What is left is to read a key. -/
theorem verdict_keyed {kind : Kind} {payload bytes : Bytes} {f : String × Bytes → Message}
    (hlength : kind.fixedLength payload ≤ payload.length ↔ keyedLength bytes ≤ bytes.length)
    (hfield : kind.text? payload = some (keyField bytes)) (hsync : kind ≠ .sync)
    (hf : ∀ (size : UInt8) (key : String) (value : Bytes),
      size.toNat = (Utf8.encode key).length → bytes = size :: (Utf8.encode key ++ value) →
      (f (key, value)).kind = kind ∧ Layout payload (f (key, value))) :
    Verdict kind payload (readKeyed bytes >>= fun r => .ok (f r)) := by
  rcases Nat.lt_or_ge bytes.length (keyedLength bytes) with hlt | hle
  · rw [readKeyed_short hlt]
    exact .short _ _ (by omega)
  · match bytes, hle with
    | size :: rest, hle =>
      have hsize : size.toNat ≤ rest.length := by
        simp only [keyedLength, List.length_cons] at hle
        omega
      rw [readKeyed_cons hsize, bind_assoc]
      refine verdict_text (f := fun key => f (key, rest.drop size.toNat)) (hlength.mpr hle) hfield
        hsync fun key hkey => hf size key _ ?_ ?_
      · rw [hkey]
        exact (List.length_take_of_le hsize).symm
      · rw [hkey]
        exact congrArg (size :: ·) (List.take_append_drop _ _).symm

/-! ### Flags -/

theorem toList_ofFn_getD (bytes : Bytes) {n m : Nat} (h : n + m ≤ bytes.length) :
    (Vector.ofFn fun i : Fin m => bytes.getD (n + i) 0).toList = (bytes.drop n).take m := by
  apply List.ext_getElem
  · simp only [Vector.length_toList, List.length_take, List.length_drop]
    omega
  · intro i hi _
    have hi : i < m := by simpa using hi
    simp [List.getD_eq_getElem?_getD, List.getElem?_eq_getElem (show n + i < bytes.length by omega)]

theorem layout_readFlags {payload : Bytes} (h : 40 ≤ payload.length) :
    Layout payload (.flagBits (readFlags payload)) := by
  have hword {n : Nat} (hn : n + 8 ≤ 40) :
      Word 8 ((payload.drop n).take 8) (toUInt64 (payload.drop n)).toNat :=
    word_toUInt64 (by rw [List.length_drop]; omega)
  have hcompatible : (readFlags payload).compatible.toList = payload.take 8 := by
    have hfront := toList_ofFn_getD payload (n := 0) (m := 8) (by omega)
    simpa [readFlags] using hfront
  have hincompatible : (readFlags payload).incompatible.toList = (payload.drop 8).take 8 :=
    toList_ofFn_getD payload (by omega)
  have hsplit {n : Nat} : (payload.drop n).take 8 ++ payload.drop (n + 8) = payload.drop n := by
    rw [← List.drop_drop, List.take_append_drop]
  have hlayout := Layout.flagBits (readFlags payload) (payload.drop 40) (hword (n := 16) (by omega))
    (hword (n := 24) (by omega)) (hword (n := 32) (by omega))
  rwa [hcompatible, hincompatible, hsplit, hsplit, hsplit, hsplit, List.take_append_drop] at hlayout

/-! ### Payloads -/

/-- **Every payload is read as one of four things.** -/
theorem verdict_read (kind : Kind) (payload : Bytes) :
    Verdict kind payload (read kind payload) := by
  have hneed {minimum : Nat} {x : Except Fault Message}
      (hlength : minimum ≤ kind.fixedLength payload)
      (hx : minimum ≤ payload.length → Verdict kind payload x) :
      Verdict kind payload (need minimum payload >>= fun _ => x) := by
    rcases Nat.lt_or_ge payload.length minimum with hlt | hle
    · rw [need_of_lt hlt]
      exact .short _ _ (Nat.lt_of_lt_of_le hlt hlength)
    · rw [need_of_le hle]
      exact hx hle
  cases kind with
  | flagBits =>
    apply hneed (Nat.le_refl 40)
    intro h
    exact verdict_ok h rfl (by decide) rfl (layout_readFlags h)
  | format =>
    refine verdict_text (Nat.zero_le _) rfl (by decide) fun text htext => ⟨rfl, ?_⟩
    rw [← htext]
    exact .format text
  | info =>
    refine verdict_keyed (f := fun r => .info r.1 r.2) Iff.rfl rfl (by decide) ?_
    intro size key value hsize hp
    rw [hp]
    exact ⟨rfl, .info key value hsize⟩
  | infoMultiple =>
    apply hneed (Nat.le_add_right 1 _)
    intro h
    match payload, h with
    | mark :: rest, _ =>
      have hlength : 1 + keyedLength rest ≤ (mark :: rest).length ↔
          keyedLength rest ≤ rest.length := by
        rw [List.length_cons]
        omega
      refine verdict_keyed (f := fun r => .infoMultiple (mark ≠ 0) r.1 r.2) hlength rfl
        (by decide) ?_
      intro size key value hsize hp
      have hrest : rest = size :: (Utf8.encode key ++ value) := hp
      rw [hrest]
      exact ⟨rfl, .infoMultiple mark key value hsize⟩
  | parameter =>
    refine verdict_keyed (f := fun r => .parameter r.1 r.2) Iff.rfl rfl (by decide) ?_
    intro size key value hsize hp
    rw [hp]
    exact ⟨rfl, .parameter key value hsize⟩
  | addLogged =>
    apply hneed (Nat.le_refl 3)
    intro h
    match payload, h with
    | multiId :: rest, h =>
      have hrest : 2 ≤ rest.length := Nat.le_of_succ_le_succ h
      refine verdict_text h rfl (by decide) fun name hname => ⟨rfl, ?_⟩
      have hparts : rest.take 2 ++ Utf8.encode name = rest := hname ▸ List.take_append_drop 2 rest
      have hlayout := Layout.addLogged multiId _ name (word_toUInt16 hrest)
      rwa [hparts] at hlayout
  | removeLogged =>
    apply hneed (Nat.le_refl 2)
    intro h
    have hlayout := Layout.removeLogged _ (payload.drop 2) (word_toUInt16 h)
    rw [List.take_append_drop] at hlayout
    exact verdict_ok h rfl (by decide) rfl hlayout
  | data =>
    apply hneed (Nat.le_refl 2)
    intro h
    have hlayout := Layout.data _ (payload.drop 2) (word_toUInt16 h)
    rw [List.take_append_drop] at hlayout
    exact verdict_ok h rfl (by decide) rfl hlayout
  | logging =>
    apply hneed (Nat.le_refl 9)
    intro h
    match payload, h with
    | level :: rest, h =>
      have hrest : 8 ≤ rest.length := Nat.le_of_succ_le_succ h
      refine verdict_text h rfl (by decide) fun text htext => ⟨rfl, ?_⟩
      have hparts : rest.take 8 ++ Utf8.encode text = rest := htext ▸ List.take_append_drop 8 rest
      have hlayout := Layout.logging level _ text (word_toUInt64 hrest)
      rwa [hparts] at hlayout
  | dropout =>
    apply hneed (Nat.le_refl 2)
    intro h
    have hlayout := Layout.dropout _ (payload.drop 2) (word_toUInt16 h)
    rw [List.take_append_drop] at hlayout
    exact verdict_ok h rfl (by decide) rfl hlayout
  | sync =>
    apply hneed (Nat.le_refl 8)
    intro h
    split
    · rename_i hmagic
      have hlayout := Layout.sync (payload.drop syncMagic.length)
      nth_rewrite 1 [← hmagic] at hlayout
      rw [List.take_append_drop] at hlayout
      exact .message h (fun _ hfield => nomatch hfield) (fun _ => hmagic) rfl hlayout
    · rename_i hmagic
      exact .unmarked h rfl rfl hmagic

theorem readKeyed_layout {size : UInt8} {key : String} (value : Bytes)
    (h : size.toNat = (Utf8.encode key).length) :
    readKeyed (size :: (Utf8.encode key ++ value)) = .ok (key, value) := by
  have hl : size.toNat ≤ (Utf8.encode key ++ value).length := by
    rw [h, List.length_append]
    exact Nat.le_add_right _ _
  rw [readKeyed_cons hl, h, List.take_left, List.drop_left, readText_encode]
  rfl

/-- Flags do not depend on what is behind them. -/
theorem readFlags_append {payload : Bytes} (h : 40 ≤ payload.length) (unread : Bytes) :
    readFlags (payload ++ unread) = readFlags payload := by
  have hbyte {i : Nat} (hi : i < 40) : (payload ++ unread).getD i 0 = payload.getD i 0 := by
    rw [List.getD_eq_getElem?_getD, List.getElem?_append_left (by omega),
      ← List.getD_eq_getElem?_getD]
  have hword {n : Nat} (hn : n + 8 ≤ 40) :
      toUInt64 ((payload ++ unread).drop n) = toUInt64 (payload.drop n) := by
    rw [toUInt64, List.drop_append_of_le_length (by omega),
      List.take_append_of_le_length (by rw [List.length_drop]; omega), toUInt64]
  simp only [readFlags, FlagBits.mk.injEq]
  refine ⟨?_, ?_, ?_⟩
  · ext i hi
    simp only [Vector.getElem_ofFn, hbyte (show i < 40 by omega)]
  · ext i hi
    simp only [Vector.getElem_ofFn, hbyte (show 8 + i < 40 by omega)]
  · ext i hi
    simp only [Vector.getElem_ofFn, hword (show 16 + 8 * i + 8 ≤ 40 by omega)]

theorem toList_three {α : Type} : ∀ v : Vector α 3, v.toList = [v[0], v[1], v[2]]
  | ⟨⟨[_, _, _]⟩, _⟩ => rfl

/-- The three words of flags are written behind each other. -/
theorem flatMap_words {words : Vector UInt64 3} {first second third : Bytes}
    (h1 : Word 8 first words[0].toNat) (h2 : Word 8 second words[1].toNat)
    (h3 : Word 8 third words[2].toNat) :
    words.toList.flatMap LittleEndian.ofUInt64 = first ++ (second ++ third) := by
  rw [toList_three, h1.eq_ofUInt64, h2.eq_ofUInt64, h3.eq_ofUInt64]
  simp

theorem need_append {front : Bytes} {n : Nat} (h : front.length = n) (rest : Bytes) :
    need n (front ++ rest) = .ok () :=
  need_of_le (by rw [List.length_append]; omega)

/-- **What lays out a message is read as this message.** -/
theorem read_of_layout {payload : Bytes} {m : Message} (h : Layout payload m) :
    read m.kind payload = .ok m := by
  cases h with
  | @flagBits flags first second third unread h1 h2 h3 =>
    have hwords := flatMap_words h1 h2 h3
    have hl : (flags.compatible.toList ++ (flags.incompatible.toList ++
        (first ++ (second ++ third)))).length = 40 := by
      simp only [List.length_append, Vector.length_toList, h1.1, h2.1, h3.1]
    have hflags := readFlags_payload flags
    rw [List.append_assoc, hwords] at hflags
    have hread := readFlags_append (Nat.le_of_eq hl.symm) unread
    rw [hflags] at hread
    simp only [List.append_assoc] at hread
    simp only [kind, read]
    rw [hread, need_of_le]
    · rfl
    · simp only [List.length_append, Vector.length_toList, h1.1, h2.1, h3.1]
      omega
  | format definition => exact read_payload (m := .format definition) rfl
  | info key value hsize | parameter key value hsize =>
    simp only [kind, read, readKeyed_layout value hsize]
    rfl
  | @infoMultiple mark size key value hsize =>
    show (readKeyed (size :: (Utf8.encode key ++ value)) >>= _) = _
    rw [readKeyed_layout value hsize]
    rfl
  | addLogged multiId messageId name hid =>
    obtain rfl := hid.eq_ofUInt16
    exact read_payload (m := .addLogged multiId messageId name) rfl
  | removeLogged n unread hword | dropout n unread hword =>
    obtain rfl := hword.eq_ofUInt16
    simp only [kind, read, need_append (LittleEndian.length_ofUInt16 n),
      LittleEndian.toUInt16_ofUInt16]
    rfl
  | data messageId content hid =>
    obtain rfl := hid.eq_ofUInt16
    exact read_payload (m := .data messageId content) rfl
  | logging level timestamp text htime =>
    obtain rfl := htime.eq_ofUInt64
    have hl : 9 ≤ (level :: (LittleEndian.ofUInt64 timestamp ++ Utf8.encode text)).length := by
      rw [List.length_cons, List.length_append, LittleEndian.length_ofUInt64]
      omega
    simp only [kind, read, need_of_le hl, List.drop_succ_cons, List.drop_zero,
      List.drop_left' (LittleEndian.length_ofUInt64 timestamp), readText_encode,
      LittleEndian.toUInt64_ofUInt64]
    rfl
  | sync unread => rfl

/-! ### Causes -/

namespace Verdict

variable {kind : Kind} {payload : Bytes} {result : Except Fault Message}

theorem short_iff (h : Verdict kind payload result) :
    (∃ actual minimum, result = .error (.notEnoughData actual minimum)) ↔
      payload.length < kind.fixedLength payload := by
  cases h with
  | short actual minimum hlt => exact ⟨fun _ => hlt, fun _ => ⟨actual, minimum, rfl⟩⟩
  | illegible | unmarked | message =>
    constructor
    · rintro ⟨_, _, he⟩
      cases he
    · omega

theorem illegible_iff (h : Verdict kind payload result)
    (hlength : kind.fixedLength payload ≤ payload.length) :
    (∃ fault, result = .error (.invalidText fault)) ↔
      ∃ field, kind.text? payload = some field ∧ ¬ Utf8.Valid field := by
  cases h with
  | short _ _ hlt => omega
  | illegible fault _ hfield hinvalid =>
    exact ⟨fun _ => ⟨_, hfield, hinvalid⟩, fun _ => ⟨fault, rfl⟩⟩
  | unmarked _ hnone =>
    constructor
    · rintro ⟨_, he⟩
      cases he
    · rintro ⟨field, hfield, -⟩
      rw [hnone] at hfield
      cases hfield
  | message _ hvalid =>
    constructor
    · rintro ⟨_, he⟩
      cases he
    · rintro ⟨field, hfield, hinvalid⟩
      exact absurd (hvalid field hfield) hinvalid

theorem unmarked_iff (h : Verdict kind payload result)
    (hlength : kind.fixedLength payload ≤ payload.length)
    (hvalid : ∀ field, kind.text? payload = some field → Utf8.Valid field) :
    (result = .error .wrongSyncMagic ↔ kind = .sync ∧ payload.take 8 ≠ syncMagic) ∧
      (¬ (kind = .sync ∧ payload.take 8 ≠ syncMagic) → ∃ m, result = .ok m) := by
  cases h with
  | short _ _ hlt => omega
  | illegible _ _ hfield hinvalid => exact absurd (hvalid _ hfield) hinvalid
  | unmarked _ _ hsync hmagic =>
    exact ⟨⟨fun _ => ⟨hsync, hmagic⟩, fun _ => rfl⟩, fun hnot => absurd ⟨hsync, hmagic⟩ hnot⟩
  | message _ _ hmagic =>
    refine ⟨⟨fun he => (nomatch he), ?_⟩, fun _ => ⟨_, rfl⟩⟩
    rintro ⟨hsync, hne⟩
    exact absurd (hmagic hsync) hne

end Verdict

/-- **A payload is read as a message if and only if it lays out this message.** -/
theorem read_eq_ok_iff {kind : Kind} {payload : Bytes} {m : Message} :
    read kind payload = .ok m ↔ m.kind = kind ∧ Layout payload m := by
  constructor
  · intro h
    have hverdict := verdict_read kind payload
    rw [h] at hverdict
    cases hverdict with
    | message _ _ _ hkind hlayout => exact ⟨hkind, hlayout⟩
  · rintro ⟨rfl, hlayout⟩
    exact read_of_layout hlayout

/-- **What every payload is read as.** No byte is looked at that is not there. A payload is too
short exactly if it is shorter than the fixed part of its kind; otherwise its text is refused
exactly if it is not valid; otherwise the marker is missed exactly in a sync message that does
not begin with it; and otherwise there is a message. The messages are those of the kind that the
payload lays out. -/
theorem read_classified (kind : Kind) (payload : Bytes) :
    read? kind payload = .of (read kind payload) ∧
      ((∃ actual minimum, read kind payload = .error (.notEnoughData actual minimum)) ↔
        payload.length < kind.fixedLength payload) ∧
      (kind.fixedLength payload ≤ payload.length →
        ((∃ fault, read kind payload = .error (.invalidText fault)) ↔
          ∃ field, kind.text? payload = some field ∧ ¬ Utf8.Valid field) ∧
        ((∀ field, kind.text? payload = some field → Utf8.Valid field) →
          (read kind payload = .error .wrongSyncMagic ↔
            kind = .sync ∧ payload.take 8 ≠ syncMagic) ∧
          (¬ (kind = .sync ∧ payload.take 8 ≠ syncMagic) → ∃ m, read kind payload = .ok m))) ∧
      ∀ m, read kind payload = .ok m ↔ m.kind = kind ∧ Layout payload m := by
  have hverdict := verdict_read kind payload
  refine ⟨read?_eq kind payload, hverdict.short_iff, ?_, fun m => read_eq_ok_iff⟩
  intro hlength
  exact ⟨hverdict.illegible_iff hlength, hverdict.unmarked_iff hlength⟩

end Message

end Log
end FlightLink
