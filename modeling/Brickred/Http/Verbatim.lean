import Brickred.Http.Write

/-!
# What `writeMessage` appends

`snprintf` needs a byte more than it reports, and an `int` has to count what it reports.

* `print_room` — one text: without room there is a NUL among the bytes appended, or they are too
  few.
* `writeMessage_eq` — a message as a list of texts.
* `printAll_verbatim_iff` — texts are appended just when each finds its room (`HasRoom`).
* `verbatim_iff` — the same for a message, and what is left of it where storage can be had.
-/

set_option autoImplicit false

namespace Brickred

open StringUtil HttpMessage HttpRequest DynamicBuffer

/-! ## Printing -/

namespace DynamicBuffer

/-- Texts that are printed one after the other, each with the bytes reserved for it. -/
def printAll : List (Nat × List UInt8) → DynamicBuffer → Option DynamicBuffer
  | [], d => some d
  | (size, text) :: texts, d => do
    let d ← d.print size text
    printAll texts d

/-- An `int` counts the text, and there is a byte for the NUL behind it. -/
def RoomFor (d : DynamicBuffer) (count : Nat) : Prop :=
  count = 0 ∨ count < 2 ^ 31 ∧ count < d.writableBytes

/-- Texts of these lengths find their room, once it has been reserved for each. -/
def HasRoom : List (Nat × Nat) → DynamicBuffer → Prop
  | [], _ => True
  | (size, count) :: texts, d => ∃ d₁, d.reserveWritableBytes size = some d₁ ∧
      d₁.RoomFor count ∧ HasRoom texts (d₁.write count)

section Store

variable {d d' : DynamicBuffer} {size : Nat} {bytes text : List UInt8}

/-- What is stored, with what lies behind it, when the index is moved over any number of bytes. -/
theorem store_count (h : bytes.length ≤ d.writableBytes) (count : Nat) :
    ∃ d', d.store 0 bytes = some d' ∧ HttpProtocol.SameSpace d' d ∧ (d'.write count).readable =
      d.readable ++ (bytes ++ d.buffer.drop (d.writeIndex + bytes.length)).take count := by
  obtain ⟨d', hstore⟩ := store_isSome h
  obtain ⟨hread, hindex, hlength, hbehind⟩ := store_behind hstore
  refine ⟨d', hstore, ⟨hlength, store_expandSize hstore, hread, hindex⟩, ?_⟩
  rw [readable_write, store_keeps hstore, hindex, hbehind]

theorem reserve_length (hd : d.buffer.length < 2 ^ 64)
    (h : d.reserveWritableBytes size = some d') : d'.buffer.length < 2 ^ 64 := by
  unfold reserveWritableBytes at h
  split at h
  · cases h
    exact hd
  · obtain ⟨newSize, _, h⟩ := Option.bind_eq_some_iff.1 h
    split at h
    · rename_i hnew
      cases h
      simp only [List.length_append, List.length_replicate, readable_length]
      omega
    · cases h

end Store

end DynamicBuffer

namespace HttpProtocol

section Print

variable {d d' d₁ : DynamicBuffer} {size : Nat} {text : List UInt8}
  {texts : List (Nat × List UInt8)}

/-- **One text.**  Without room there is a NUL among the bytes that are appended, or they are too
few. -/
theorem print_room (hsize : d.buffer.length < 2 ^ 64)
    (hd₁ : d.reserveWritableBytes size = some d₁) (text : List UInt8) :
    ∃ d' appended, d.print size text = some d' ∧ d'.readable = d.readable ++ appended ∧
      d'.buffer.length < 2 ^ 64 ∧
      (d₁.RoomFor text.length → appended = text ∧ SameSpace d' (d₁.write text.length)) ∧
      (¬ d₁.RoomFor text.length → 0 ∈ appended ∨ appended.length < text.length) := by
  have hlength := reserve_length hsize hd₁
  have hread := reserve_readable hd₁
  have hprint : d.print size text =
      (d₁.snprintf text).map fun d₂ => d₂.write (snprintfCount text) := by
    unfold print
    rw [hd₁]
    simp only [bind, Option.bind_some]
    cases d₁.snprintf text <;> rfl
  unfold RoomFor
  by_cases hroom : d₁.writableBytes = 0
  · -- nothing is stored, and the index stays
    have hnone : d₁.buffer.drop d₁.writeIndex = [] := List.drop_eq_nil_of_le (by
      unfold writableBytes at hroom
      omega)
    refine ⟨d₁.write (snprintfCount text), [], ?_, ?_, hlength, fun h => ?_, fun h => ?_⟩
    · rw [hprint, snprintf, if_pos hroom]
      rfl
    · rw [readable_write, hnone, List.take_nil, hread]
    · have hnil : text = [] := List.length_eq_zero_iff.1 (by omega)
      subst hnil
      exact ⟨rfl, rfl, rfl, rfl, rfl⟩
    · exact Or.inr (by rw [List.length_nil]; omega)
  · have hstored : (text.take (d₁.writableBytes - 1) ++ [0]).length ≤ d₁.writableBytes := by
      rw [List.length_append, List.length_take, List.length_singleton]
      omega
    obtain ⟨d₂, hd₂, hspace, hread₂⟩ := store_count hstored (snprintfCount text)
    refine ⟨d₂.write (snprintfCount text), _, ?_, hread ▸ hread₂, ?_, fun h => ?_, fun h => ?_⟩
    · rw [hprint, snprintf, if_neg hroom, hd₂]
      rfl
    · exact hspace.length_eq ▸ hlength
    · have hcount : snprintfCount text = text.length := if_pos (by omega)
      rw [hcount, List.take_of_length_le (i := d₁.writableBytes - 1) (by omega), List.append_assoc,
        List.take_left]
      exact ⟨rfl, sameSpace_write hspace _⟩
    · -- the index is moved over the NUL
      have hcount : (text.take (d₁.writableBytes - 1) ++ [0]).length ≤ snprintfCount text := by
        rw [List.length_append, List.length_take, List.length_singleton]
        unfold snprintfCount
        unfold writableBytes at *
        split <;> omega
      refine Or.inl ?_
      rw [List.take_append, List.take_of_length_le hcount]
      simp

theorem hasRoom_congr : ∀ {texts : List (Nat × Nat)} {d e : DynamicBuffer}, SameSpace d e →
    HasRoom texts d → HasRoom texts e
  | [], _, _, _, _ => trivial
  | (size, count) :: texts, d, e, h, ⟨d₁, hd₁, hroom, hrest⟩ => by
    obtain ⟨e₁, he₁, hspace⟩ := sameSpace_reserve h hd₁
    refine ⟨e₁, he₁, ?_, hasRoom_congr (sameSpace_write hspace count) hrest⟩
    unfold RoomFor at hroom ⊢
    rwa [sameSpace_writable hspace] at hroom

theorem sameSpace_symm {d e : DynamicBuffer} (h : SameSpace d e) : SameSpace e d :=
  ⟨h.length_eq.symm, h.expand_eq.symm, h.read_eq.symm, h.write_eq.symm⟩

/-- What is appended has a NUL, or is not too long. -/
theorem printAll_grows : ∀ {texts : List (Nat × List UInt8)} {d d' : DynamicBuffer},
    d.buffer.length < 2 ^ 64 → printAll texts d = some d' →
    ∃ appended, d'.readable = d.readable ++ appended ∧
      (0 ∈ appended ∨ appended.length ≤ (texts.flatMap Prod.snd).length) ∧
      d'.buffer.length < 2 ^ 64
  | [], d, d', hsize, hd => by
    cases hd
    exact ⟨[], (List.append_nil _).symm, Or.inr le_rfl, hsize⟩
  | (size, text) :: texts, d, d', hsize, hd => by
    obtain ⟨d₂, hd₂, hd⟩ := Option.bind_eq_some_iff.1 hd
    obtain ⟨d₁, hd₁, _⟩ := Option.bind_eq_some_iff.1 hd₂
    obtain ⟨d₂', appended, hd₂', hread, hsize', hroom, hnone⟩ := print_room hsize hd₁ text
    cases hd₂.symm.trans hd₂'
    obtain ⟨rest, hread', hrest, hlength⟩ := printAll_grows hsize' hd
    refine ⟨appended ++ rest, by rw [hread', hread, List.append_assoc], ?_, hlength⟩
    have happended : 0 ∈ appended ∨ appended.length ≤ text.length := by
      by_cases h : d₁.RoomFor text.length
      · exact Or.inr (by rw [(hroom h).1])
      · exact (hnone h).imp_right Nat.le_of_lt
    rw [List.flatMap_cons, List.length_append, List.length_append, List.mem_append]
    dsimp only
    rcases happended with h | h
    · exact Or.inl (Or.inl h)
    · exact hrest.elim (fun h' => Or.inl (Or.inr h')) fun h' => Or.inr (by omega)

/-- **Texts without a NUL** are appended just when each finds its room. -/
theorem printAll_verbatim_iff : ∀ {texts : List (Nat × List UInt8)} {d : DynamicBuffer},
    (∀ text ∈ texts, 0 ∉ text.2) → d.buffer.length < 2 ^ 64 →
    ((∃ d', printAll texts d = some d' ∧
      d'.readable = d.readable ++ texts.flatMap Prod.snd) ↔
        HasRoom (texts.map fun text => (text.1, text.2.length)) d)
  | [], d, _, _ => ⟨fun _ => trivial, fun _ => ⟨d, rfl, (List.append_nil _).symm⟩⟩
  | (size, text) :: texts, d, hnul, hsize => by
    have hnul' : ∀ text ∈ texts, 0 ∉ text.2 := fun t h => hnul t (List.mem_cons_of_mem _ h)
    have hfree : 0 ∉ text ++ texts.flatMap Prod.snd := by
      intro hmem
      rcases List.mem_append.1 hmem with h | h
      · exact hnul _ List.mem_cons_self h
      · obtain ⟨t, ht, hmem'⟩ := List.mem_flatMap.1 h
        exact hnul' t ht hmem'
    rw [List.map_cons, List.flatMap_cons]
    constructor
    · rintro ⟨d', hd', hread'⟩
      obtain ⟨d₂, hd₂, hrun⟩ := Option.bind_eq_some_iff.1 hd'
      obtain ⟨d₁, hd₁, _⟩ := Option.bind_eq_some_iff.1 hd₂
      obtain ⟨d₂', appended, hd₂', hread, hsize', hroom, hnone⟩ := print_room hsize hd₁ text
      cases hd₂.symm.trans hd₂'
      obtain ⟨rest, hread₂, hrest, _⟩ := printAll_grows hsize' hrun
      have heq : appended ++ rest = text ++ texts.flatMap Prod.snd := by
        rw [hread₂, hread, List.append_assoc] at hread'
        exact List.append_cancel_left hread'
      rw [← heq, List.mem_append, not_or] at hfree
      by_cases h : d₁.RoomFor text.length
      · obtain ⟨rfl, hspace⟩ := hroom h
        have hrest' := (printAll_verbatim_iff hnul' hsize').1
          ⟨d', hrun, by rw [hread₂, List.append_cancel_left heq]⟩
        exact ⟨d₁, hd₁, h, hasRoom_congr hspace hrest'⟩
      · have hlen := congrArg List.length heq
        have hshort := (hnone h).resolve_left hfree.1
        have hrest' := hrest.resolve_left hfree.2
        rw [List.length_append, List.length_append] at hlen
        omega
    · rintro ⟨d₁, hd₁, h, hrest⟩
      obtain ⟨d₂, appended, hd₂, hread, hsize', hroom, _⟩ := print_room hsize hd₁ text
      obtain ⟨rfl, hspace⟩ := hroom h
      obtain ⟨d', hrun, hread'⟩ := (printAll_verbatim_iff hnul' hsize').2
        (hasRoom_congr (sameSpace_symm hspace) hrest)
      refine ⟨d', ?_, by rw [hread', hread, List.append_assoc]⟩
      rw [printAll, hd₂]
      exact hrun

end Print

/-! ## A message -/

/-- No `%s` of the message stops before its end. -/
structure NulFree (message : HttpMessage) : Prop where
  start : NulFreeStart message
  headers : ∀ header ∈ message.headers.entries, 0 ∉ header.1 ∧ 0 ∉ header.2
  body : 0 ∉ message.body

/-- The texts of a message, each with the bytes reserved for it. -/
def messageTexts (message : HttpMessage) : List (Nat × List UInt8) :=
  (startLineRoom message, startLine message ++ crlf) ::
    (message.headers.entries.map (fun header =>
      (32 + header.1.length + header.2.length, headerLine header ++ crlf)) ++
        [(2, crlf), (message.body.length, message.body)])

/-- The lengths of these texts. -/
def textLengths (message : HttpMessage) : List (Nat × Nat) :=
  headTexts message ++ [(message.body.length, message.body.length)]

/-- What is appended is the head and the body of the message. -/
def Verbatim (message : HttpMessage) (d : DynamicBuffer) : Prop :=
  ∃ d', writeMessage message d = some d' ∧
    d'.readable = d.readable ++ (head message ++ message.body)

section Texts

variable {message : HttpMessage} {d : DynamicBuffer}

theorem printAll_append (texts' : List (Nat × List UInt8)) :
    ∀ (texts : List (Nat × List UInt8)) (d : DynamicBuffer),
    printAll (texts ++ texts') d = (printAll texts d).bind (printAll texts')
  | [], _ => rfl
  | (size, text) :: texts, d => by
    rw [List.cons_append, printAll, printAll]
    simp only [bind, Option.bind_assoc, printAll_append texts' texts]

theorem writeHeaders_eq : ∀ {headers : List (List UInt8 × List UInt8)} (d : DynamicBuffer),
    (∀ header ∈ headers, 0 ∉ header.1 ∧ 0 ∉ header.2) →
    writeHeaders headers d = printAll (headers.map fun header =>
      (32 + header.1.length + header.2.length, headerLine header ++ crlf)) d
  | [], _, _ => rfl
  | (name, value) :: headers, d, h => by
    obtain ⟨hname, hvalue⟩ := h _ List.mem_cons_self
    rw [writeHeaders, header_text hname hvalue, List.map_cons, printAll]
    congr 1
    funext d'
    exact writeHeaders_eq d' fun header hmem => h header (List.mem_cons_of_mem _ hmem)

/-- **The message as a list of texts.** -/
theorem writeMessage_eq (hw : NulFree message) (d : DynamicBuffer) :
    writeMessage message d = printAll (messageTexts message) d := by
  unfold writeMessage writeHead messageTexts
  rw [writeStartLine_eq hw.start, cStr_of_notMem hw.body, printAll]
  simp only [bind, Option.bind_assoc]
  congr 1
  funext d₁
  rw [printAll_append, writeHeaders_eq d₁ hw.headers]
  congr 1
  funext d₂
  cases h : d₂.print 2 crlf with
  | none => simp [printAll, h]
  | some d₃ => simp [printAll, h]

theorem messageTexts_lengths (message : HttpMessage) :
    (messageTexts message).map (fun text => (text.1, text.2.length)) = textLengths message := by
  unfold messageTexts textLengths headTexts
  simp only [List.map_cons, List.map_append, List.map_map, List.map_nil, List.cons_append,
    List.append_assoc, List.nil_append]
  rfl

theorem messageTexts_flatMap (message : HttpMessage) :
    (messageTexts message).flatMap Prod.snd = head message ++ message.body := by
  unfold messageTexts head headerLines
  simp [List.flatMap_map]

theorem notMem_startLine_nul (hw : NulFree message) : 0 ∉ startLine message := by
  have hversion : ∀ version : Version, (0 : UInt8) ∉ versionEnumToStr version := by
    rintro (_ | _ | _) <;> decide
  have hmethod : ∀ method : Method, (0 : UInt8) ∉ methodEnumToStr method := by
    rintro (_ | _ | _) <;> decide
  have hstart := hw.start
  unfold NulFreeStart at hstart
  unfold startLine
  cases hkind : message.kind with
  | request method requestUri =>
    rw [hkind] at hstart
    dsimp only at hstart ⊢
    simp [hstart, hversion, hmethod]
  | response statusCode reasonPhrase =>
    rw [hkind] at hstart
    dsimp only at hstart ⊢
    simp [hstart, hversion, notMem_intToString]

theorem messageTexts_nul (hw : NulFree message) : ∀ text ∈ messageTexts message, 0 ∉ text.2 := by
  have hcrlf : (0 : UInt8) ∉ crlf := by decide
  have hcolon : (0 : UInt8) ∉ bytes ": " := by decide
  intro text hmem
  simp only [messageTexts, List.mem_cons, List.mem_append, List.mem_map, List.not_mem_nil,
    or_false] at hmem
  rcases hmem with rfl | ⟨header, hmem, rfl⟩ | rfl | rfl
  · simp [notMem_startLine_nul hw, hcrlf]
  · simp [headerLine, (hw.headers header hmem).1, (hw.headers header hmem).2, hcrlf, hcolon]
  · exact hcrlf
  · exact hw.body

end Texts

/-! ## Where storage can be had -/

section Space

variable {message : HttpMessage} {d : DynamicBuffer} {size count total : Nat}

/-- Room for one text. -/
theorem reserve_write (hd : d.Sized) (hfits : d.readableBytes + size + 2 * d.expandSize < 2 ^ 63)
    (hle : count ≤ size) :
    ∃ d₁, d.reserveWritableBytes size = some d₁ ∧ size ≤ d₁.writableBytes ∧
      (d.writableBytes < size → size < d₁.writableBytes) ∧ (d₁.write count).Sized ∧
      (d₁.write count).expandSize = d.expandSize ∧
      (d₁.write count).readableBytes = d.readableBytes + count ∧
      (d₁.write count).writableBytes = d₁.writableBytes - count := by
  obtain ⟨d₁, hd₁, hread, hroom, hgrown, hsized⟩ :=
    reserve_spec hd (by omega) (fits_of_lt hd hfits)
  have hexp := reserve_expandSize hd₁
  have hlen : d₁.readableBytes = d.readableBytes := by
    rw [← readable_length, ← readable_length, hread]
  have hr := d₁.read_le_write
  refine ⟨d₁, hd₁, hroom, hgrown, ⟨hsized.expand_pos, hsized.expand_lt, hsized.size_lt⟩, hexp, ?_,
    ?_⟩
  · rw [← hlen]
    show d₁.writeIndex + min count d₁.writableBytes - d₁.readIndex = _
    unfold readableBytes
    omega
  · show d₁.buffer.length - (d₁.writeIndex + min count d₁.writableBytes) = _
    unfold writableBytes at hroom ⊢
    omega

/-- Texts for which more is reserved than they need: what is left behind them. -/
theorem hasRoom_spacious : ∀ {texts : List (Nat × Nat)} {d : DynamicBuffer}, d.Sized →
    (∀ text ∈ texts, text.2 < text.1 - 2) →
    d.readableBytes + (texts.map Prod.fst).sum + total + 2 * d.expandSize < 2 ^ 63 →
    ∃ e : DynamicBuffer, e.Sized ∧ e.readableBytes + total + 2 * e.expandSize < 2 ^ 63 ∧
      (texts ≠ [] → 2 < e.writableBytes) ∧ ∀ texts' : List (Nat × Nat),
        roomBehind (texts ++ texts') d = roomBehind texts' e ∧
        (HasRoom (texts ++ texts') d ↔ (∀ text ∈ texts, text.2 < 2 ^ 31) ∧ HasRoom texts' e)
  | [], d, hd, _, hfits => by
    rw [List.map_nil, List.sum_nil, Nat.add_zero] at hfits
    refine ⟨d, hd, hfits, fun h => absurd rfl h, fun texts' => ⟨rfl, ?_⟩⟩
    rw [List.nil_append]
    exact ⟨fun h => ⟨by simp, h⟩, And.right⟩
  | (size, count) :: texts, d, hd, hspacious, hfits => by
    have hlt : count < size - 2 := hspacious _ List.mem_cons_self
    rw [List.map_cons, List.sum_cons] at hfits
    dsimp only at hfits
    obtain ⟨d₁, hd₁, hroom, _, hsized, hexp, hread, hleft⟩ :=
      @reserve_write d size count hd (by omega) (by omega)
    obtain ⟨e, he, hfits', hroom', hbehind⟩ := @hasRoom_spacious texts (d₁.write count) hsized
      (fun t ht => hspacious t (List.mem_cons_of_mem _ ht)) (by rw [hread, hexp]; omega)
    refine ⟨e, he, hfits', fun _ => ?_, fun texts' => ⟨?_, ?_⟩⟩
    · cases texts with
      | nil =>
        -- nothing has been reserved since
        have hself := (hbehind []).1
        rw [List.append_nil, roomBehind, roomBehind, Option.some_inj] at hself
        omega
      | cons text texts => exact hroom' (List.cons_ne_nil _ _)
    · rw [List.cons_append, roomBehind, hd₁]
      exact (hbehind texts').1
    · rw [List.cons_append, HasRoom, List.forall_mem_cons, and_assoc, ← (hbehind texts').2]
      unfold RoomFor
      constructor
      · rintro ⟨d₁', hd₁', hcount, hrest⟩
        cases hd₁.symm.trans hd₁'
        exact ⟨by dsimp only; omega, hrest⟩
      · rintro ⟨hcount, hrest⟩
        exact ⟨d₁, hd₁, Or.inr ⟨hcount, by omega⟩, hrest⟩

/-- A text for which no more is reserved than it has bytes. -/
theorem hasRoom_exact (hd : d.Sized) (hfits : d.readableBytes + count + 2 * d.expandSize < 2 ^ 63) :
    HasRoom [(count, count)] d ↔ count = 0 ∨ count < 2 ^ 31 ∧ d.writableBytes ≠ count := by
  obtain ⟨d₁, hd₁, hle, hgrown, _⟩ := @reserve_write d count 0 hd hfits (Nat.zero_le _)
  have hroomFor : d₁.RoomFor count ↔ count = 0 ∨ count < 2 ^ 31 ∧ d.writableBytes ≠ count := by
    unfold RoomFor
    refine or_congr_right (and_congr_right fun _ => ?_)
    by_cases hnoop : count ≤ d.writableBytes
    · rw [reserve_noop hnoop] at hd₁
      cases hd₁
      omega
    · have := hgrown (by omega)
      omega
  rw [← hroomFor]
  constructor
  · rintro ⟨d₁', hd₁', h, _⟩
    cases hd₁.symm.trans hd₁'
    exact h
  · exact fun h => ⟨d₁, hd₁, h, trivial⟩

/-- A text that fits into what is writable already. -/
theorem hasRoom_fits {texts : List (Nat × Nat)} (hlt : count < 2 ^ 31)
    (hroom : count < d.writableBytes) :
    HasRoom ((count, count) :: texts) d ↔ HasRoom texts (d.write count) := by
  have hnoop : d.reserveWritableBytes count = some d := reserve_noop (Nat.le_of_lt hroom)
  constructor
  · rintro ⟨d₁, hd₁, _, h⟩
    cases hnoop.symm.trans hd₁
    exact h
  · exact fun h => ⟨d, hnoop, Or.inr ⟨hlt, hroom⟩, h⟩

/-- Before the empty line more is reserved than needed. -/
theorem headTexts_spacious (hcode : IntCode message) : ∃ texts : List (Nat × Nat),
    headTexts message = texts ++ [(2, 2)] ∧ texts ≠ [] ∧ (∀ text ∈ texts, text.2 < text.1 - 2) ∧
      (texts.map Prod.fst).sum = startLineRoom message + headersRoom message.headers.entries := by
  refine ⟨(startLineRoom message, (startLine message ++ crlf).length) ::
    message.headers.entries.map fun header =>
      (32 + header.1.length + header.2.length, (headerLine header ++ crlf).length), rfl,
    List.cons_ne_nil _ _, ?_, ?_⟩
  · intro text hmem
    rw [List.mem_cons, List.mem_map] at hmem
    rcases hmem with rfl | ⟨header, _, rfl⟩
    · exact startLine_length hcode
    · dsimp only
      rw [headerLine_length]
      omega
  · rw [List.map_cons, List.sum_cons, List.map_map]
    rfl

/-- Behind the head, which finds its room, everything depends on the body. -/
theorem hasRoom_iff (hcode : IntCode message) (hd : Addressable d message) :
    HasRoom (textLengths message) d ↔ (∀ text ∈ textLengths message, text.2 < 2 ^ 31) ∧
      (message.body = [] ∨ roomBehind (headTexts message) d ≠ some message.body.length) := by
  obtain ⟨hsized, hfits⟩ := hd
  obtain ⟨texts, hhead, hne, hspacious, hsum⟩ := headTexts_spacious hcode
  obtain ⟨e, he, hfits', hroom, hbehind⟩ := @hasRoom_spacious (2 + message.body.length) texts d
    hsized hspacious (by rw [hsum]; omega)
  have hroom := hroom hne
  -- the empty line stays in the room behind the headers
  have hnoop : e.reserveWritableBytes 2 = some e := reserve_noop (Nat.le_of_lt hroom)
  obtain ⟨e', he', _, _, hsized', hexp', hread', _⟩ :=
    @reserve_write e 2 2 he (by omega) le_rfl
  cases hnoop.symm.trans he'
  have hroomBehind : roomBehind (headTexts message) d = some (e.write 2).writableBytes := by
    rw [hhead, (hbehind _).1, roomBehind, hnoop]
    rfl
  have hbody : HasRoom [(message.body.length, message.body.length)] (e.write 2) ↔
      message.body = [] ∨ message.body.length < 2 ^ 31 ∧
        (e.write 2).writableBytes ≠ message.body.length := by
    rw [hasRoom_exact hsized' (by rw [hexp', hread']; omega), List.length_eq_zero_iff]
  have hlengths : (∀ text ∈ textLengths message, text.2 < 2 ^ 31) ↔
      (∀ text ∈ texts, text.2 < 2 ^ 31) ∧ message.body.length < 2 ^ 31 := by
    rw [textLengths, hhead, List.append_assoc, List.forall_mem_append]
    simp
  rw [hlengths, hroomBehind, ne_eq, Option.some_inj, textLengths, hhead, List.append_assoc,
    (hbehind _).2]
  change _ ∧ HasRoom ((2, 2) :: [(message.body.length, message.body.length)]) e ↔ _
  rw [hasRoom_fits (by decide) hroom, hbody, and_assoc]
  refine and_congr_right fun _ => ?_
  constructor
  · rintro (hnil | ⟨hshort, hne⟩)
    · exact ⟨by rw [hnil]; decide, Or.inl hnil⟩
    · exact ⟨hshort, Or.inr hne⟩
  · rintro ⟨hshort, hnil | hne⟩
    · exact Or.inl hnil
    · exact Or.inr ⟨hshort, hne⟩

end Space

/-- **`writeMessage` appends a message verbatim** just when each text finds its room.  Where
storage can be had, the head always does: what is left is that an `int` counts the bytes, and that
the body does not fill what is writable behind the head exactly. -/
theorem verbatim_iff {message : HttpMessage} {d : DynamicBuffer} (hw : NulFree message)
    (hsize : d.buffer.length < 2 ^ 64) :
    (Verbatim message d ↔ HasRoom (textLengths message) d) ∧
    (IntCode message → Addressable d message → (Verbatim message d ↔
      (∀ text ∈ textLengths message, text.2 < 2 ^ 31) ∧
        (message.body = [] ∨ roomBehind (headTexts message) d ≠ some message.body.length))) := by
  have hiff : Verbatim message d ↔ HasRoom (textLengths message) d := by
    have hall := printAll_verbatim_iff (messageTexts_nul hw) hsize
    rw [messageTexts_flatMap, messageTexts_lengths] at hall
    unfold Verbatim
    rw [writeMessage_eq hw]
    exact hall
  exact ⟨hiff, fun hcode hd => hiff.trans (hasRoom_iff hcode hd)⟩

/-- A request whose body is as long as the room behind its head. -/
def filling : HttpMessage :=
  (HttpMessage.new (.request .get (bytes "/")) .http11).setBody (List.replicate 47 97)

theorem filling_nulFree : NulFree filling where
  start := show 0 ∉ bytes "/" by decide
  headers _ h := absurd h List.not_mem_nil
  body := by decide

theorem filling_iff :
    (Verbatim filling (.new 65 64) ↔ HasRoom (textLengths filling) (.new 65 64)) ∧
    (Verbatim filling (.new 65 64) ↔ (∀ text ∈ textLengths filling, text.2 < 2 ^ 31) ∧
      (filling.body = [] ∨
        roomBehind (headTexts filling) (.new 65 64) ≠ some filling.body.length)) :=
  have h := @verbatim_iff filling (.new 65 64) filling_nulFree (by decide)
  ⟨h.1, h.2 trivial ⟨⟨by decide, by decide, by decide⟩, by decide⟩⟩

/-- Its last byte is the NUL of `snprintf`. -/
theorem filling_not_verbatim : ¬ Verbatim filling (.new 65 64) := by
  rintro ⟨d', hd', hread⟩
  have hlast : ((writeMessage filling (.new 65 64)).bind fun d =>
      d.readable.getLast?) = some 0 := by decide
  rw [hd', Option.bind_some, hread] at hlast
  exact absurd hlast (by decide)

end HttpProtocol

end Brickred
