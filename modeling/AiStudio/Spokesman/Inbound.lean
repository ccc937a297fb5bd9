import AiStudio.Data.Pieces
import AiStudio.Runtime.Models
import Mathlib.Data.List.Sort

/-!
# Inbound messages

Embeds `spokesman/state.py` and what the webhook does with a request before it looks at a
message: the signatures of `whatsapp.py` and `twilio_sms.py`, and the two parsers. The
parsers take what JSON and forms they get; a value of another type than the code expects
raises, as it does in Python. The two keyed hashes and the Unicode digits are parameters.
-/

set_option autoImplicit false

namespace AiStudio.Spokesman

open AiStudio.Data AiStudio.Runtime

/-- `SUPPORTED_CHANNELS`. -/
inductive Channel where
  | whatsapp
  | twilioSms
  deriving DecidableEq, Repr

/-- The wire string of a channel. -/
def Channel.value : Channel → String
  | whatsapp => "whatsapp"
  | twilioSms => "twilio_sms"

/-- The settings the webhook reads. -/
structure Settings where
  channel : Channel
  stakeholderNumber : String
  appSecret : String
  twilioAuthToken : String
  dryRun : Bool

/-- One inbound message. The code trusts the payload to give texts. -/
structure InboundMessage where
  messageId : Json Empty
  sender : Json Empty
  text : Json Empty
  timestamp : Json Empty

/-- An attribute or method the value does not have. -/
def attributeError : Exn := .runtimeError "AttributeError"

/-- An operation the type of the value does not have. -/
def typeError : Exn := .runtimeError "TypeError"

/-! ## Texts -/

/-- `s.split()`: the words of a text. -/
def words (s : String) : List String :=
  ((s.toList.splitOnP isSpace).filter (· ≠ [])).map String.ofList

/-- `s.strip().split(None, 2)[2]`: the text after its first two words. -/
def afterTwoWords (s : String) : String :=
  let skip := fun (l : List Char) => (l.dropWhile (!isSpace ·)).dropWhile isSpace
  String.ofList (skip (skip (strip s).toList))

/-- `s.lower()`, as far as it makes letters of the English alphabet. -/
def lower (s : String) : String :=
  String.ofList (s.toList.map fun c => if c = '\u212A' then 'k' else c.toLower)

/-- `s.upper()`, as far as it makes letters of the English alphabet. -/
def upper (s : String) : String := String.ofList (s.toList.map Char.toUpper)

/-- `s.replace(pattern, "")`; the next `skip` characters belong to an occurrence. -/
def erase (pattern : List Char) (skip : Nat) : List Char → List Char
  | [] => []
  | c :: cs =>
      if 0 < skip then erase pattern (skip - 1) cs
      else if pattern.isPrefixOf (c :: cs) then erase pattern (pattern.length - 1) cs
      else c :: erase pattern 0 cs

/-- The digits that `int(s, 16)` reads: a sign, a prefix and single underscores may stand
between them. -/
def hexDigits? (s : List Char) : Option (List Char) :=
  let s := (s.dropWhile isSpace).rdropWhile isSpace
  let s := if s.head? = some '+' then s.tail else s
  let prefixed := "0x".toList.isPrefixOf s || "0X".toList.isPrefixOf s
  let groups := (if prefixed then s.drop 2 else s).splitOn '_'
  let groups := if prefixed && groups.head? = some [] then groups.tail else groups
  let digits := groups.flatten.map Char.toLower
  if groups.all (· ≠ []) && digits ≠ [] && digits.all isHexDigit then some digits else none

/-- `uuid.UUID(text)`: 32 hexadecimal digits, beside prefixes, braces and hyphens. -/
def uuid? (text : String) : Option Uuid :=
  let brace := fun c => c = '\x7b' || c = '\x7d'
  let hex := erase "uuid:".toList 0 (erase "urn:".toList 0 text.toList)
  let hex := ((hex.dropWhile brace).rdropWhile brace).filter (· ≠ '-')
  if hex.length ≠ 32 then none
  else
    match hexDigits? hex with
    | none => none
    | some digits =>
        let digits := List.replicate (32 - digits.length) '0' ++ digits
        let group := fun (i n : Nat) => String.ofList ((digits.drop i).take n)
        let text := "-".intercalate [group 0 8, group 8 4, group 12 4, group 16 4, group 20 12]
        if h : isUuidText text = true then some ⟨text, h⟩ else none

/-- `mask_number`: the last four characters of a number; `str` is `str` of a list. -/
def maskNumber (str : Json Empty → String) (number : Json Empty) : Except Exn String :=
  if !number.truthy then .ok "(unknown)"
  else
    match number with
    | .str s => .ok ("****" ++ String.ofList (s.toList.drop (s.length - 4)))
    | .arr items => .ok ("****" ++ str (.arr (items.drop (items.length - 4))))
    | _ => .error typeError

/-! ## Signatures -/

/-- `verify_signature`: `hmac key body` is the hexadecimal HMAC-SHA256. -/
def verifySignature (hmac : String → List UInt8 → String) (rawBody : List UInt8)
    (header : Option String) (appSecret : String) : Bool :=
  match header with
  | none => false
  | some header =>
      header ≠ "" && appSecret ≠ "" && "sha256=".toList.isPrefixOf header.toList &&
        strip (String.ofList (header.toList.drop 7)) = hmac appSecret rawBody

/-- A form: its keys are distinct. -/
abbrev Form := List (String × String)

/-- `verify_twilio_signature`: `hmac key text` is the Base64 HMAC-SHA1. -/
def verifyTwilioSignature (hmac : String → String → String) (authToken url : String)
    (params : Form) (signature : Option String) : Bool :=
  match signature with
  | none => false
  | some signature =>
      authToken ≠ "" && signature ≠ "" && url ≠ "" &&
        strip signature = hmac authToken (url ++ String.join
          ((params.insertionSort fun x y => x.1 ≤ y.1).map fun p => p.1 ++ p.2))

/-! ## The parsers -/

/-- `value.get(key, default) or default` for a list. -/
def listOrEmpty : Json Empty → Except Exn (List (Json Empty))
  | .arr items => .ok items
  | value => if value.truthy then .error typeError else .ok []

/-- `value.get`, which only an object has. -/
def fields : Json Empty → Except Exn Doc
  | .obj fields => .ok fields
  | _ => .error attributeError

/-- `value or \x7b\x7d`, of which `get` is called. -/
def fieldsOrEmpty (value : Json Empty) : Except Exn Doc :=
  if value.truthy then fields value else .ok []

/-- One element of `messages`; none when it is no text message. -/
def inboundMessage (msg : Json Empty) : Except Exn (Option InboundMessage) := do
  let msg ← fields msg
  if (Doc.getD msg "type" .null).asStr? ≠ some "text" then return none
  else
    let text ← fieldsOrEmpty (Doc.getD msg "text" (.obj []))
    return some ⟨Doc.getD msg "id" (.str ""), Doc.getD msg "from" (.str ""),
      Doc.getD text "body" (.str ""), Doc.getD msg "timestamp" (.str "")⟩

/-- `iter_inbound_messages`: the text messages of a Meta payload. -/
def iterInboundMessages (payload : Json Empty) : Except Exn (List InboundMessage) := do
  let payload ← fields payload
  let entries ← listOrEmpty (Doc.getD payload "entry" (.arr []))
  let messages ← entries.mapM fun entry => do
    let changes ← listOrEmpty (Doc.getD (← fields entry) "changes" (.arr []))
    let messages ← changes.mapM fun change => do
      let value ← fieldsOrEmpty (Doc.getD (← fields change) "value" (.obj []))
      let messages ← listOrEmpty (Doc.getD value "messages" (.arr []))
      return (← messages.mapM inboundMessage).reduceOption
    return messages.flatten
  return messages.flatten

/-- `iter_twilio_inbound`: the text of a Twilio form, from the digits of its sender. -/
def iterTwilioInbound (isDigit : Char → Bool) (form : Form) : List InboundMessage :=
  let get := fun key => (form.lookup key).getD ""
  let body := strip (get "Body")
  let sender := (strip (get "From")).toList
  let digits := if sender.head? = some '+' then sender.drop 1 else sender.filter isDigit
  let id := if get "MessageSid" = "" then get "SmsMessageSid" else get "MessageSid"
  if body = "" then []
  else [⟨.str id, .str (String.ofList digits), .str body, .str (get "DateCreated")⟩]

/-! ## An id is read back -/

/-- A digit is no blank, and none of the characters that `uuid?` looks for. -/
theorem of_isHexDigit {c : Char} (h : isHexDigit c = true) :
    isSpace c = false ∧ c ∉ ['+', '_', 'x', 'X', 'u', '\x7b', '\x7d', '-'] ∧ c.toLower = c := by
  have hall : ∀ c ∈ "0123456789abcdef".toList, isSpace c = false ∧
      c ∉ ['+', '_', 'x', 'X', 'u', '\x7b', '\x7d', '-'] ∧ c.toLower = c :=
    forall_mem_of_all (by decide)
  exact hall c (by simpa [isHexDigit] using h)

theorem erase_of_not_mem {c : Char} {cs l : List Char} (h : c ∉ l) : erase (c :: cs) 0 l = l := by
  induction l with
  | nil => rfl
  | cons d l ih =>
      rw [List.mem_cons, not_or] at h
      have hprefix : (c :: cs).isPrefixOf (d :: l) = false := by
        rw [List.isPrefixOf_cons_cons, beq_eq_false_iff_ne.2 h.1, Bool.false_and]
      rw [erase, if_neg (Nat.lt_irrefl 0), hprefix, if_neg Bool.false_ne_true, ih h.2]

section Digits

variable {l : List Char} (h : ∀ c ∈ l, isHexDigit c = true)

include h

theorem not_mem_of_isHexDigit {d : Char} (hd : d ∈ ['+', '_', 'x', 'X', 'u', '\x7b', '\x7d', '-']) :
    d ∉ l :=
  fun hmem => (of_isHexDigit (h d hmem)).2.1 hd

/-- Digits are read as they are. -/
theorem hexDigits?_of_isHexDigit (hne : l ≠ []) : hexDigits? l = some l := by
  have hstrip : (l.dropWhile isSpace).rdropWhile isSpace = l := by
    have hplain := strip_of_forall (s := String.ofList l) fun c hc =>
      (of_isHexDigit (h c (by simpa using hc))).1
    simpa [strip_toList] using congrArg String.toList hplain
  have hsign : l.head? ≠ some '+' :=
    fun hhead => not_mem_of_isHexDigit h (by decide) (List.mem_of_mem_head? hhead)
  have hprefix : ("0x".toList.isPrefixOf l || "0X".toList.isPrefixOf l) = false := by
    rw [Bool.or_eq_false_iff, Bool.eq_false_iff, Bool.eq_false_iff]
    constructor <;> intro hpre <;> rw [List.isPrefixOf_iff_prefix] at hpre
    · exact not_mem_of_isHexDigit h (d := 'x') (by decide) (hpre.subset (by decide))
    · exact not_mem_of_isHexDigit h (d := 'X') (by decide) (hpre.subset (by decide))
  have hgroups : l.splitOn '_' = [l] :=
    List.splitOn_eq_singleton (not_mem_of_isHexDigit h (by decide))
  have hlower : l.map Char.toLower = l := by
    conv_rhs => rw [← List.map_id l]
    exact List.map_congr_left fun c hc => (of_isHexDigit (h c hc)).2.2
  have hall : l.all isHexDigit = true := List.all_eq_true.2 h
  simp only [hexDigits?, hstrip, if_neg hsign, hprefix, Bool.false_eq_true, if_false, hgroups,
    Bool.false_and, List.flatten_singleton, hlower, hall]
  simp [hne]

end Digits

/-- The groups of an id. -/
theorem exists_uuidGroups (id : Uuid) : ∃ a b c d e : List Char,
    id.text.toList = a ++ '-' :: (b ++ '-' :: (c ++ '-' :: (d ++ '-' :: e))) ∧
      (a.length = 8 ∧ b.length = 4 ∧ c.length = 4 ∧ d.length = 4 ∧ e.length = 12) ∧
      ∀ x ∈ a ++ b ++ c ++ d ++ e, isHexDigit x = true := by
  obtain ⟨text, hcanonical⟩ := id
  simp only [isUuidText, Bool.and_eq_true, decide_eq_true_eq, List.all_eq_true,
    Bool.or_eq_true] at hcanonical
  obtain ⟨hlengths, hchars⟩ := hcanonical
  have hcount := length_splitOn (l := text.toList) (a := '-')
  have htext : ['-'].intercalate (text.toList.splitOn '-') = text.toList :=
    List.intercalate_splitOn '-'
  rcases hsplit : text.toList.splitOn '-' with _ | ⟨a, _ | ⟨b, _ | ⟨c, _ | ⟨d, _ | ⟨e, _ | ⟨f, rest⟩⟩⟩⟩⟩⟩ <;>
    rw [hsplit] at hlengths hcount htext <;> simp at hlengths
  have hshape : text.toList = a ++ '-' :: (b ++ '-' :: (c ++ '-' :: (d ++ '-' :: e))) := by
    rw [← htext]
    simp [List.intercalate]
  refine ⟨a, b, c, d, e, hshape, by omega, fun x hx => ?_⟩
  have hdash : x ≠ '-' := by
    rintro rfl
    rw [hshape] at hcount
    simp only [List.count_append, List.count_cons_self, List.length_cons, List.length_nil] at hcount
    rw [← List.count_pos_iff] at hx
    simp only [List.count_append] at hx
    omega
  refine (hchars x ?_).resolve_left hdash
  rw [hshape]
  simp only [List.mem_append, List.mem_cons] at hx ⊢
  tauto

/-- An id has no other characters than digits and dashes. -/
theorem not_mem_uuidText (id : Uuid) {d : Char} (hd : d ∈ ['u', '\x7b', '\x7d']) :
    d ∉ id.text.toList := by
  intro hmem
  obtain ⟨text, hcanonical⟩ := id
  simp only [isUuidText, Bool.and_eq_true, List.all_eq_true, Bool.or_eq_true,
    decide_eq_true_eq] at hcanonical
  rcases hcanonical.2 d hmem with rfl | hhex
  · exact absurd hd (by decide)
  · revert hhex
    exact (forall_mem_of_all (P := fun d => ¬ isHexDigit d = true) (by decide)) d hd

/-- Nothing of an id is erased or dropped. -/
theorem uuidText_bare (id : Uuid) :
    erase "urn:".toList 0 id.text.toList = id.text.toList ∧
      erase "uuid:".toList 0 id.text.toList = id.text.toList ∧
      (id.text.toList.dropWhile fun c => c = '\x7b' || c = '\x7d') = id.text.toList ∧
      (id.text.toList.rdropWhile fun c => c = '\x7b' || c = '\x7d') = id.text.toList := by
  have hu := not_mem_uuidText id (d := 'u') (by decide)
  have hbrace : ∀ c ∈ id.text.toList, ¬ (c = '\x7b' || c = '\x7d') = true := by
    intro c hc hbrace
    rw [Bool.or_eq_true, decide_eq_true_eq, decide_eq_true_eq] at hbrace
    exact not_mem_uuidText id (by simpa using .inr hbrace) hc
  have hurn : "urn:".toList = ['u', 'r', 'n', ':'] := by decide
  have huuid : "uuid:".toList = ['u', 'u', 'i', 'd', ':'] := by decide
  refine ⟨?_, ?_, ?_, ?_⟩
  · rw [hurn, erase_of_not_mem hu]
  · rw [huuid, erase_of_not_mem hu]
  · exact List.dropWhile_eq_self_iff.2 fun hpos => hbrace _ (List.getElem_mem hpos)
  · exact List.rdropWhile_eq_self_iff.2 fun hne => hbrace _ (List.getLast_mem hne)

/-- The digits of an id, and the id from its digits. -/
theorem uuid_digits (id : Uuid) : ∃ l : List Char,
    id.text.toList.filter (· ≠ '-') = l ∧ l.length = 32 ∧ (∀ c ∈ l, isHexDigit c = true) ∧
      "-".intercalate [String.ofList ((l.drop 0).take 8), String.ofList ((l.drop 8).take 4),
        String.ofList ((l.drop 12).take 4), String.ofList ((l.drop 16).take 4),
        String.ofList ((l.drop 20).take 12)] = id.text := by
  obtain ⟨a, b, c, d, e, htext, ⟨ha, hb, hc, hd, he⟩, hhex⟩ := exists_uuidGroups id
  refine ⟨a ++ b ++ c ++ d ++ e, ?_, by simp only [List.length_append]; omega, hhex, ?_⟩
  · have hdash : (a ++ b ++ c ++ d ++ e).filter (· ≠ '-') = a ++ b ++ c ++ d ++ e := by
      refine List.filter_eq_self.2 fun x hx => ?_
      have hplain := not_mem_of_isHexDigit hhex (d := '-') (by decide)
      rw [decide_eq_true_eq]
      rintro rfl
      exact hplain hx
    rw [← hdash, htext]
    simp [List.filter_cons_of_neg]
  · have h8 : (a ++ b ++ c ++ d ++ e).drop 8 = b ++ (c ++ (d ++ e)) := by
      simp only [List.append_assoc]
      exact List.drop_left' ha
    have h12 : (a ++ b ++ c ++ d ++ e).drop 12 = c ++ (d ++ e) := by
      rw [← List.drop_drop (i := 4) (j := 8), h8]
      exact List.drop_left' hb
    have h16 : (a ++ b ++ c ++ d ++ e).drop 16 = d ++ e := by
      rw [← List.drop_drop (i := 4) (j := 12), h12]
      exact List.drop_left' hc
    have h20 : (a ++ b ++ c ++ d ++ e).drop 20 = e := by
      rw [← List.drop_drop (i := 4) (j := 16), h16]
      exact List.drop_left' hd
    have hfirst : ((a ++ b ++ c ++ d ++ e).drop 0).take 8 = a := by
      simp only [List.drop_zero, List.append_assoc]
      exact List.take_left' ha
    rw [h8, h12, h16, h20, hfirst, List.take_left' hb, List.take_left' hc, List.take_left' hd,
      List.take_of_length_le he.le, ← String.toList_inj, htext]
    simp

/-- **The text of an id reads as the id.** -/
theorem uuid?_text (id : Uuid) : uuid? id.text = some id := by
  obtain ⟨l, hfilter, hlen, hhex, hjoin⟩ := uuid_digits id
  obtain ⟨hurn, huuid, hdrop, hrdrop⟩ := uuidText_bare id
  have hread := hexDigits?_of_isHexDigit hhex (List.ne_nil_of_length_pos (by omega))
  unfold uuid?
  simp only [hurn, huuid, hdrop, hrdrop, hfilter, hread, hlen, ne_eq, not_true_eq_false, if_false,
    Nat.sub_self, List.replicate_zero, List.nil_append, hjoin]
  rw [dif_pos id.canonical]

end AiStudio.Spokesman
