import Brickred.DynamicBuffer.Reserve
import Brickred.Http.Uncounted

/-!
# Long lines in a new buffer

The storage of a new buffer is filled with NULs.  A line that no `int` counts is followed by some of
them, and they stand in front of the next line.

* `print_fresh`, `print_line` — one text.
* `Padded` — header lines with the NULs in front of each, and those behind the last one.
* `writeMessage_padded` — a message without a body is written so.
* `find_padded`, `undisturbed_padded` — the fields of some names are read as they were written just
  when the head is `Undisturbed`.
* `reads_padded`, `ready_padded` — when a head is read, and what is read of it.
-/

set_option autoImplicit false

namespace Brickred

open StringUtil HttpMessage DynamicBuffer

namespace HttpProtocol

/-! ## Printing -/

/-- A buffer that nothing was read from, with NULs in the room that is left. -/
structure Fresh (d : DynamicBuffer) : Prop where
  unread : d.readIndex = 0
  expand : d.expandSize = 1024
  blank : d.buffer.drop d.writeIndex = List.replicate d.writableBytes 0
  room : d.writableBytes ≤ 4096

section Print

variable {d d' : DynamicBuffer} {size : Nat} {text : List UInt8}

theorem fresh_new {initSize : Nat} (h : initSize ≤ 4096) : Fresh (.new initSize 1024) := by
  have hroom : (DynamicBuffer.new initSize 1024).writableBytes = initSize := List.length_replicate
  exact ⟨rfl, rfl, by rw [hroom]; rfl, hroom.trans_le h⟩

/-- New storage is filled with NULs. -/
theorem reserve_behind (h : d.reserveWritableBytes size = some d') (hroom : d.writableBytes < size) :
    d'.readIndex = 0 ∧ d'.buffer.drop d'.writeIndex = List.replicate d'.writableBytes 0 := by
  unfold reserveWritableBytes at h
  rw [if_neg (by omega)] at h
  obtain ⟨newSize, _, h⟩ := Option.bind_eq_some_iff.1 h
  split at h
  · cases h
    have hlen := d.readable_length
    refine ⟨rfl, ?_⟩
    show (d.readable ++ List.replicate (newSize - d.readableBytes) 0).drop d.readableBytes =
      List.replicate ((d.readable ++ List.replicate (newSize - d.readableBytes) 0).length -
        d.readableBytes) 0
    rw [List.length_append, hlen, List.drop_left' hlen, List.length_replicate, Nat.add_sub_cancel_left]
  · cases h

/-- What is reserved of a new buffer. -/
theorem reserve_fresh (hd : Fresh d) (hfits : d.readableBytes + size < 2 ^ 61 + 2 ^ 60) :
    ∃ d₁, d.reserveWritableBytes size = some d₁ ∧ d₁.readable = d.readable ∧ d₁.readIndex = 0 ∧
      d₁.expandSize = 1024 ∧
      d₁.buffer.drop d₁.writeIndex = List.replicate d₁.writableBytes 0 ∧
      size ≤ d₁.writableBytes ∧ (d.writableBytes < size → size < d₁.writableBytes) ∧
      d₁.writableBytes ≤ max 4096 (size + 2048) := by
  obtain ⟨hunread, hexpand, hblank, hroom⟩ := hd
  by_cases hnoop : size ≤ d.writableBytes
  · exact ⟨d, reserve_noop hnoop, rfl, hunread, hexpand, hblank, hnoop, fun h => by omega,
      by omega⟩
  have hlen : d.buffer.length = d.readableBytes + (d.readIndex + d.writableBytes) := d.length_eq
  have hsized : d.Sized := ⟨by omega, by rw [hexpand]; decide, by omega⟩
  obtain ⟨room, hnew, _, hbound⟩ := @expandedSize_room d size (by omega) (by omega) (by omega)
    (by omega)
  obtain ⟨d₁, hd₁, hread, hfree, hgrown, _⟩ :=
    @reserve_spec d size hsized (by omega) (fits_of_lt hsized (by omega))
  obtain ⟨hzero, hblank₁⟩ := reserve_behind hd₁ (not_le.1 hnoop)
  have hroom₁ := ((reserve_expanded (not_le.1 hnoop) hnew).2 d₁ hd₁).2
  exact ⟨d₁, hd₁, hread, hzero, (reserve_expandSize hd₁).trans hexpand, hblank₁, hfree, hgrown,
    by omega⟩

/-- What is printed behind the index of a buffer with NULs in the room that is left: the text, and
as many of the NULs as are counted. -/
theorem print_behind {d₁ : DynamicBuffer} (hd₁ : d.reserveWritableBytes size = some d₁)
    (hblank : d₁.buffer.drop d₁.writeIndex = List.replicate d₁.writableBytes 0)
    (hfree : text.length < d₁.writableBytes) :
    ∃ d', d.print size text = some d' ∧ d'.readIndex = d₁.readIndex ∧
      d'.expandSize = d₁.expandSize ∧
      d'.writableBytes = d₁.writableBytes - min (snprintfCount text) d₁.writableBytes ∧
      d'.readable = d₁.readable ++
        (text ++ List.replicate (d₁.writableBytes - text.length) 0).take (snprintfCount text) ∧
      d'.buffer.drop d'.writeIndex =
        (text ++ List.replicate (d₁.writableBytes - text.length) 0).drop
          (min (snprintfCount text) d₁.writableBytes) := by
  have hone : (text ++ ([0] : List UInt8)).length = text.length + 1 := List.length_append
  obtain ⟨d₂, hd₂, hprint⟩ := print_stored hd₁ hfree
  obtain ⟨hindex, hwrite, hlength, hbehind⟩ := store_behind hd₂
  have hspace : d₂.writableBytes = d₁.writableBytes := by
    unfold writableBytes
    rw [hwrite, hlength]
  have hstored : d₂.buffer.drop d₂.writeIndex =
      text ++ List.replicate (d₁.writableBytes - text.length) 0 := by
    obtain ⟨rest, hrest⟩ := Nat.exists_eq_add_of_lt hfree
    rw [hwrite, hbehind, ← List.drop_drop, hblank, hone, List.drop_replicate, List.append_assoc,
      show d₁.writableBytes - text.length = rest + 1 by omega,
      show d₁.writableBytes - (text.length + 1) = rest by omega, List.replicate_succ]
    rfl
  refine ⟨_, hprint, hindex, (write_expandSize _ _).trans (store_expandSize hd₂),
    ?_, ?_, ?_⟩
  · show d₂.buffer.length - (d₂.writeIndex + min (snprintfCount text) d₂.writableBytes) = _
    rw [← hspace]
    unfold writableBytes
    omega
  · rw [readable_write, store_keeps hd₂, hstored]
  · show d₂.buffer.drop (d₂.writeIndex + min (snprintfCount text) d₂.writableBytes) = _
    rw [← List.drop_drop, hstored, hspace]

/-- **One text**: it is appended, and behind it NULs, just when no `int` counts it. -/
theorem print_fresh (hd : Fresh d) (hfits : d.readableBytes + size < 2 ^ 61 + 2 ^ 60)
    (hlen : text.length ≤ size) (hnear : size ≤ text.length + 64)
    (hshort : text.length < size ∨ d.writableBytes ≠ size) :
    ∃ d' pad, d.print size text = some d' ∧ Fresh d' ∧
      d'.readable = d.readable ++ (text ++ List.replicate pad 0) ∧
      (pad = 0 ↔ text.length < 2 ^ 31) ∧ pad ≤ 4096 ∧
      (text.length < 2 ^ 31 → 0 < d'.writableBytes ∧ size - text.length ≤ d'.writableBytes) ∧
      (¬ text.length < 2 ^ 31 → d'.writableBytes = 0) := by
  obtain ⟨d₁, hd₁, hread, hzero, hexp, hblank, hroom, hgrown, hbound⟩ := reserve_fresh hd hfits
  have hfree : text.length < d₁.writableBytes := by
    by_cases hnoop : size ≤ d.writableBytes
    · rw [reserve_noop hnoop] at hd₁
      cases hd₁
      omega
    · have := hgrown (by omega)
      omega
  obtain ⟨d', hprint, hindex, hexp', hleft, hread', hbehind⟩ := print_behind hd₁ hblank hfree
  rw [hread] at hread'
  by_cases hcount : text.length < 2 ^ 31
  · have hindex' : min (snprintfCount text) d₁.writableBytes = text.length := by
      rw [snprintfCount_eq hcount]
      omega
    rw [hindex'] at hleft hbehind
    rw [List.drop_left, ← hleft] at hbehind
    refine ⟨d', 0, hprint, ⟨hindex.trans hzero, hexp'.trans hexp, hbehind, by omega⟩, ?_,
      iff_of_true rfl hcount, Nat.zero_le _, fun _ => by omega, fun h => absurd hcount h⟩
    rw [hread', snprintfCount_eq hcount, List.take_left, List.replicate_zero, List.append_nil]
  · have hcounted : snprintfCount text = 2 ^ 64 - 1 := if_neg hcount
    have hall : (text ++ List.replicate (d₁.writableBytes - text.length) 0).length =
        d₁.writableBytes := by
      rw [List.length_append, List.length_replicate]
      omega
    rw [min_eq_right (by omega)] at hleft hbehind
    rw [List.drop_of_length_le hall.le] at hbehind
    rw [Nat.sub_self] at hleft
    refine ⟨d', d₁.writableBytes - text.length, hprint,
      ⟨hindex.trans hzero, hexp'.trans hexp, by rw [hbehind, hleft]; rfl, by omega⟩, ?_,
      iff_of_false (by omega) hcount, by omega, fun h => absurd h hcount, fun _ => hleft⟩
    rw [hread', List.take_of_length_le (by omega)]

/-- **One line**: behind it there is more room than the line end of the head takes, or none. -/
theorem print_line (hd : Fresh d) (hfits : d.readableBytes + size < 2 ^ 61 + 2 ^ 60)
    (hlen : text.length + 2 < size) (hnear : size ≤ text.length + 64) :
    ∃ d' pad, d.print size text = some d' ∧ Fresh d' ∧ d'.writableBytes ≠ 2 ∧
      d'.readable = d.readable ++ (text ++ List.replicate pad 0) ∧
      (pad = 0 ↔ text.length < 2 ^ 31) ∧ d'.readableBytes ≤ d.readableBytes + 2 * size := by
  obtain ⟨d', pad, hprint, hd', hread, hpad, hsmall, hcounted, hlong⟩ := @print_fresh d size text
    hd hfits (by omega) hnear (Or.inl (by omega))
  have hbytes : d'.readableBytes = d.readableBytes + (text.length + pad) := by
    rw [← readable_length, ← readable_length, hread, List.length_append,
      @List.length_append _ _ (List.replicate pad 0), List.length_replicate]
  refine ⟨d', pad, hprint, hd', ?_, hread, hpad, ?_⟩
  all_goals
    by_cases hcount : text.length < 2 ^ 31
    · have hpad' := hpad.2 hcount
      have hleft := hcounted hcount
      omega
    · have hleft := hlong hcount
      omega

end Print

/-! ## The head of a message -/

/-- The header lines of a message, with this many NULs in front of the first and behind the last.
There are NULs behind a line just when no `int` counts it. -/
inductive Padded : Nat → List (List UInt8 × List UInt8) → List (List UInt8 × List UInt8) → Nat → Prop
  | nil (pad : Nat) : Padded pad [] [] pad
  | cons {front pad back : Nat} {header : List UInt8 × List UInt8}
      {headers lines : List (List UInt8 × List UInt8)}
      (hpad : pad = 0 ↔ (headerLine header ++ crlf).length < 2 ^ 31)
      (h : Padded pad headers lines back) :
      Padded front (header :: headers) ((List.replicate front 0 ++ header.1, header.2) :: lines) back

/-- The same of a head. -/
structure PaddedHead (message : HttpMessage) (front : Nat)
    (lines : List (List UInt8 × List UInt8)) (back : Nat) : Prop where
  startLine : front = 0 ↔ (HttpProtocol.startLine message ++ crlf).length < 2 ^ 31
  headers : Padded front message.headers.entries lines back

/-- The bytes of the head. -/
def paddedText (message : HttpMessage) (lines : List (List UInt8 × List UInt8)) (back : Nat) :
    List UInt8 :=
  HttpProtocol.startLine message ++ crlf ++ (headerLines lines ++ (List.replicate back 0 ++ crlf))

section Write

variable {d d' : DynamicBuffer} {message : HttpMessage} {headers : List (List UInt8 × List UInt8)}

/-- The room behind a line: the line end finds more than it needs, or none. -/
theorem writeHeaders_padded : ∀ {headers : List (List UInt8 × List UInt8)} {d : DynamicBuffer}
    (front : Nat), (∀ header ∈ headers, PlainHeader header) → Fresh d → d.writableBytes ≠ 2 →
    d.readableBytes + 2 * headersRoom headers < 2 ^ 61 + 2 ^ 60 →
    ∃ d' lines back text, writeHeaders headers d = some d' ∧ Fresh d' ∧ d'.writableBytes ≠ 2 ∧
      d'.readableBytes ≤ d.readableBytes + 2 * headersRoom headers ∧
      Padded front headers lines back ∧ d'.readable = d.readable ++ text ∧
      List.replicate front 0 ++ text = headerLines lines ++ List.replicate back 0
  | [], d, front, _, hd, hroom, _ =>
    ⟨d, [], front, [], rfl, hd, hroom, Nat.le_add_right _ _, .nil front,
      (List.append_nil _).symm, List.append_nil _⟩
  | header :: headers, d, front, hw, hd, _, hfits => by
    have hroom : headersRoom (header :: headers) =
        32 + header.1.length + header.2.length + headersRoom headers := rfl
    have hlen := headerLine_length header
    rw [hroom] at hfits
    obtain ⟨d₁, pad, hprint, hd₁, hroom₁, hread, hpad, hbytes⟩ := @print_line d
      (32 + header.1.length + header.2.length) (headerLine header ++ crlf) hd (by omega) (by omega)
      (by omega)
    obtain ⟨d', lines, back, text, hrest, hd', hroom', hbytes', hlines, hread', htext⟩ :=
      writeHeaders_padded pad (fun header h => hw header (List.mem_cons_of_mem _ h)) hd₁ hroom₁
        (by omega)
    refine ⟨d', _, back, headerLine header ++ crlf ++ List.replicate pad 0 ++ text, ?_, hd', hroom',
      by omega, .cons hpad hlines, ?_, ?_⟩
    · rw [writeHeaders_cons (hw header List.mem_cons_self), hprint]
      exact hrest
    · rw [hread', hread]
      simp only [List.append_assoc]
    · rw [List.append_assoc _ (List.replicate pad 0), htext]
      simp [headerLines, headerLine]

theorem startLine_near (message : HttpMessage) :
    startLineRoom message ≤ (startLine message ++ crlf).length + 64 := by
  unfold startLine startLineRoom
  cases message.kind <;> simp only [List.length_append] <;> omega

/-- **How a message without a body is written.** -/
theorem writeMessage_padded (hw : Plain message) (hbody : message.body = []) (hd : Fresh d)
    (hfits : d.readableBytes + 2 * (startLineRoom message +
      headersRoom message.headers.entries) < 2 ^ 61 + 2 ^ 59) :
    ∃ d' front lines back, writeMessage message d = some d' ∧
      PaddedHead message front lines back ∧
      d'.readable = d.readable ++ paddedText message lines back := by
  have hlen := startLine_length hw.start.intCode
  obtain ⟨d₁, front, hd₁, hfresh₁, hroom₁, hread₁, hfront, hbytes₁⟩ := @print_line d
    (startLineRoom message) (startLine message ++ crlf) hd (by omega) (by omega)
    (startLine_near message)
  obtain ⟨d₂, lines, back, text, hd₂, hfresh₂, hroom₂, hbytes₂, hlines, hread₂, htext⟩ :=
    writeHeaders_padded front hw.headers hfresh₁ hroom₁ (by omega)
  obtain ⟨d₃, pad, hd₃, _, hread₃, hpad, _, hcounted₃, _⟩ := @print_fresh d₂ 2 crlf hfresh₂
    (by omega) le_rfl (by decide) (Or.inr hroom₂)
  obtain ⟨d', hd', hread⟩ := print_nil (hcounted₃ (by decide)).1
  refine ⟨d', front, lines, back, ?_, ⟨hfront, hlines⟩, ?_⟩
  · unfold writeMessage writeHead
    rw [writeStartLine_eq hw.start.nulFree, hd₁]
    simp only [bind, Option.bind_some, hd₂, hd₃, hbody]
    exact hd'
  · unfold paddedText
    rw [hread, hread₃, hpad.2 (by decide), hread₂, hread₁, List.replicate_zero, List.append_nil]
    simp only [List.append_assoc]
    rw [← List.append_assoc (List.replicate front 0) text, htext]
    simp only [List.append_assoc]

end Write

/-! ## What is read -/

/-- A header with one of these names stands behind a line that an `int` counts, and so does the end
of the head; `length` is that of the line before. -/
def Undisturbed (names : List (List UInt8)) : Nat → List (List UInt8 × List UInt8) → Prop
  | length, [] => length < 2 ^ 31
  | length, header :: headers =>
    (length < 2 ^ 31 ∨ ∀ name ∈ names, rank header.1 ≠ rank name) ∧
      Undisturbed names (headerLine header ++ crlf).length headers

instance decidableUndisturbed (names : List (List UInt8)) :
    ∀ (length : Nat) (headers : List (List UInt8 × List UInt8)),
      Decidable (Undisturbed names length headers)
  | length, [] => inferInstanceAs (Decidable (length < 2 ^ 31))
  | _, header :: headers =>
    have := decidableUndisturbed names (headerLine header ++ crlf).length headers
    inferInstanceAs (Decidable (_ ∧ _))

/-- The same of a message. -/
def KeepsFields (names : List (List UInt8)) (message : HttpMessage) : Prop :=
  Undisturbed names (startLine message ++ crlf).length message.headers.entries

instance (names : List (List UInt8)) (message : HttpMessage) :
    Decidable (KeepsFields names message) :=
  decidableUndisturbed names _ _

/-- A head with lines that an `int` counts keeps all its fields. -/
theorem undisturbed_counted (names : List (List UInt8)) :
    ∀ {headers : List (List UInt8 × List UInt8)} {length : Nat}, length < 2 ^ 31 →
      (∀ header ∈ headers, (headerLine header ++ crlf).length < 2 ^ 31) →
      Undisturbed names length headers
  | [], _, hlength, _ => hlength
  | header :: _, _, hlength, h =>
    ⟨Or.inl hlength, undisturbed_counted names (h header List.mem_cons_self)
      fun header hmem => h header (List.mem_cons_of_mem _ hmem)⟩

theorem keeps_of_counted {message : HttpMessage} (h : Counted message)
    (names : List (List UInt8)) : KeepsFields names message :=
  undisturbed_counted names h.startLine fun _ hmem => h.header hmem

section Fields

variable {names : List (List UInt8)} {key name : List UInt8} {front back length : Nat}
  {header line : List UInt8 × List UInt8} {headers lines : List (List UInt8 × List UInt8)}

theorem trimmed_nul {s : List UInt8} (h : Trimmed s) : ∀ n, Trimmed (List.replicate n 0 ++ s)
  | 0 => h
  | n + 1 => by
    have ih := trimmed_nul h n
    intro b hb
    have hne : (0 : UInt8) ≠ b := by
      rintro rfl
      exact absurd hb (by decide)
    refine ⟨fun hhead => hne (Option.some.inj hhead), fun hlast => ?_⟩
    rw [List.replicate_succ, List.cons_append, List.getLast?_cons] at hlast
    cases hrest : (List.replicate n 0 ++ s).getLast? with
    | none =>
      rw [hrest] at hlast
      exact hne (Option.some.inj hlast)
    | some c =>
      rw [hrest] at hlast
      exact (ih b hb).2 (hrest.trans hlast)

theorem legible_nul (h : PlainHeader header) (n : Nat) :
    LegibleHeader (List.replicate n 0 ++ header.1, header.2) := by
  refine ⟨fun b hb hmem => ?_, h.legible.value, trimmed_nul h.name_trimmed n⟩
  rcases List.mem_append.1 hmem with hmem | hmem
  · exact absurd ((List.mem_replicate.1 hmem).2 ▸ hb) (by decide)
  · exact h.legible.name b hb hmem

theorem padded_legible (h : Padded front headers lines back)
    (hw : ∀ header ∈ headers, PlainHeader header) : ∀ line ∈ lines, LegibleHeader line := by
  induction h with
  | nil => exact fun line hmem => absurd hmem List.not_mem_nil
  | cons hpad h ih =>
    obtain ⟨hheader, hheaders⟩ := List.forall_mem_cons.1 hw
    exact List.forall_mem_cons.2 ⟨legible_nul hheader _, ih hheaders⟩

theorem padded_ne_nil (h : Padded front headers lines back) (hne : headers ≠ []) : lines ≠ [] := by
  cases h with
  | nil => exact absurd rfl hne
  | cons => exact List.cons_ne_nil _ _

/-- A name with NULs in front. -/
theorem rank_replicate (hkey : (rank key).head? ≠ some (charRank 0)) {n : Nat} (hn : n ≠ 0) :
    rank (List.replicate n 0 ++ name) ≠ rank key := by
  obtain ⟨n, rfl⟩ := Nat.exists_eq_add_one_of_ne_zero hn
  exact rank_nul_ne hkey _

/-- A field that was not written is not read. -/
theorem rank_padded (h : Padded front headers lines back)
    (hkey : (rank key).head? ≠ some (charRank 0))
    (hnone : ∀ header ∈ headers, rank header.1 ≠ rank key) : ∀ line ∈ lines, rank line.1 ≠ rank key := by
  induction h with
  | nil => exact fun line hmem => absurd hmem List.not_mem_nil
  | @cons front pad back header headers lines hpad h ih =>
    obtain ⟨hheader, hheaders⟩ := List.forall_mem_cons.1 hnone
    refine List.forall_mem_cons.2 ⟨?_, ih hheaders⟩
    by_cases hfront : front = 0
    · subst hfront
      exact hheader
    · exact rank_replicate hkey hfront

theorem rank_readHeaders (h : ∀ line ∈ lines, rank line.1 ≠ rank key) :
    ∀ line ∈ readHeaders lines, rank line.1 ≠ rank key := by
  intro line hmem
  obtain ⟨written, hwritten, rfl⟩ := List.mem_map.1 hmem
  exact h written hwritten

/-- **A field of these names** is read as it was written. -/
theorem find_padded (hkey : (rank key).head? ≠ some (charRank 0)) (hmem : key ∈ names)
    (h : Padded front headers lines back) : ∀ {length : Nat} {m m' : HeaderMap},
    (front = 0 ↔ length < 2 ^ 31) → Undisturbed names length headers → m.find key = m'.find key →
    (m.insertAll (readHeaders lines)).find key = (m'.insertAll (readHeaders headers)).find key := by
  induction h with
  | nil => exact fun _ _ hfind => hfind
  | @cons front pad back header headers lines hpad h ih =>
    intro length m m' hlength hun hfind
    obtain ⟨hheader, hun⟩ := hun
    refine ih hpad hun ?_
    rw [SortedMap.find_insert, SortedMap.find_insert]
    by_cases hfront : front = 0
    · subst hfront
      rw [List.replicate_zero, List.nil_append, hfind]
    · rw [if_neg (rank_replicate hkey hfront),
        if_neg (hheader.resolve_left (mt hlength.2 hfront) key hmem), hfind]

theorem undisturbed_back (h : Padded front headers lines back) : ∀ {length : Nat},
    (front = 0 ↔ length < 2 ^ 31) → Undisturbed names length headers → back = 0 := by
  induction h with
  | nil => exact fun hlength hun => hlength.2 hun
  | cons hpad h ih => exact fun _ hun => ih hpad hun.2

theorem find_insertAll_congr {m m' : HeaderMap} (h : m.find key = m'.find key) :
    ∀ lines : List (List UInt8 × List UInt8),
      (m.insertAll lines).find key = (m'.insertAll lines).find key := by
  intro lines
  induction lines generalizing m m' with
  | nil => exact h
  | cons line lines ih =>
    refine ih ?_
    rw [SortedMap.find_insert, SortedMap.find_insert, h]

/-- **The fields of these names that were written** are read only so. -/
theorem undisturbed_padded (hnames : ∀ key ∈ names, (rank key).head? ≠ some (charRank 0))
    (h : Padded front headers lines back) (hback : back = 0) : ∀ {length : Nat},
    (front = 0 ↔ length < 2 ^ 31) → headers.Pairwise (fun e e' => rank e.1 < rank e'.1) →
    (∀ key ∈ names, (∃ header ∈ headers, rank header.1 = rank key) →
      (SortedMap.empty.insertAll (readHeaders lines) : HeaderMap).find key ≠ none) →
    Undisturbed names length headers := by
  induction h with
  | nil => exact fun hlength _ _ => hlength.1 hback
  | @cons front pad back header headers lines hpad h ih =>
    intro length hlength hsorted hread
    obtain ⟨hhead, hsorted⟩ := List.pairwise_cons.1 hsorted
    have hfind : ∀ key ∈ names, rank (List.replicate front 0 ++ header.1) ≠ rank key →
        (SortedMap.empty.insertAll (readHeaders ((List.replicate front 0 ++ header.1, header.2) ::
          lines)) : HeaderMap).find key =
            (SortedMap.empty.insertAll (readHeaders lines) : HeaderMap).find key := by
      intro key hkey hne
      refine find_insertAll_congr ?_ (readHeaders lines)
      rw [SortedMap.find_insert, if_neg hne]
    constructor
    · by_contra hdisturbed
      push Not at hdisturbed
      obtain ⟨hlong, key, hkey, hrank⟩ := hdisturbed
      have hfront : front ≠ 0 := mt hlength.1 (not_lt.2 hlong)
      have hother : ∀ header' ∈ headers, rank header'.1 ≠ rank key := fun header' hmem heq =>
        (hhead header' hmem).ne (hrank.trans heq.symm)
      refine hread key hkey ⟨header, List.mem_cons_self, hrank⟩ ?_
      rw [hfind key hkey (rank_replicate (hnames key hkey) hfront), SortedMap.find_insertAll _ _ _
        (rank_readHeaders (rank_padded h (hnames key hkey) hother)), SortedMap.find_empty]
    · refine ih hback hpad hsorted fun key hkey hmem => ?_
      obtain ⟨header', hmem, hrank⟩ := hmem
      have hne : rank (List.replicate front 0 ++ header.1) ≠ rank key := by
        by_cases hfront : front = 0
        · subst hfront
          exact fun heq => (hhead header' hmem).ne (heq.trans hrank.symm)
        · exact rank_replicate (hnames key hkey) hfront
      rw [← hfind key hkey hne]
      exact hread key hkey ⟨header', List.mem_cons_of_mem _ hmem, hrank⟩

end Fields

section Read

variable {beyond : Nat → UInt8} {message received : HttpMessage} {front back : Nat}
  {lines : List (List UInt8 × List UInt8)} {left : List UInt8} {chunkBuffer : Option (List UInt8)}

/-- **A head with NULs in front of its lines** is read as one message. -/
theorem reads_padded (hw : Plain message) (hne : message.headers.entries ≠ [])
    (hlength : message.headers.find (bytes "Content-Length") = none)
    (hencoding : message.headers.find (bytes "Transfer-Encoding") = none)
    (h : PaddedHead message front lines 0) :
    parser.Reads Heading reset [readOf message lines] reset (paddedText message lines 0) := by
  have hnone : ∀ {key : List UInt8}, (rank key).head? ≠ some (charRank 0) →
      message.headers.find key = none → (readOf message lines).headers.find key = none := by
    intro key hkey hfind
    exact (SortedMap.find_insertAll _ _ _ (rank_readHeaders (rank_padded h.headers hkey
      (SortedMap.rank_ne_of_find hfind)))).trans (SortedMap.find_empty key)
  exact reads_bodiless hw.start (padded_legible h.headers hw.headers) (padded_ne_nil h.headers hne)
    (hnone (by decide) hlength) (hnone (by decide) hencoding)

/-- There is no empty line behind NULs. -/
theorem firstIndex_padded {n : Nat} : ∀ {lines : List (List UInt8 × List UInt8)},
    (∀ line ∈ lines, LegibleHeader line) → Search.firstIndex (crlf ++ crlf)
      (headerLines lines ++ 0 :: (List.replicate n 0 ++ crlf)) = none
  | [], _ => by
    have hnul : (13 : UInt8) ∉ 0 :: List.replicate n 0 := fun hmem =>
      absurd (@List.eq_of_mem_replicate _ _ _ (n + 1) hmem) (by decide)
    have hskip := @Search.firstIndex_skip _ _ (crlf ++ crlf) crlf (0 :: List.replicate n 0)
      (Search.not_prefix_of_notMem hnul)
    exact hskip.trans rfl
  | line :: lines, h => by
    obtain ⟨hline, hlines⟩ := List.forall_mem_cons.1 h
    have htext : headerLines (line :: lines) ++ 0 :: (List.replicate n 0 ++ crlf) =
        headerLine line ++ (crlf ++ (headerLines lines ++ 0 :: (List.replicate n 0 ++ crlf))) := by
      simp [headerLines]
    rw [htext, firstIndex_line (notMem_headerLine hline)
      (headerLines_head (List.replicate n 0 ++ crlf) hlines), firstIndex_padded hlines]
    rfl

/-- **What is read** of a head as `writeMessage` writes it to a new buffer, if it is read at all. -/
theorem ready_padded (hw : Plain message) (hne : message.headers.entries ≠ [])
    (hlength : message.headers.find (bytes "Content-Length") = none)
    (hencoding : message.headers.find (bytes "Transfer-Encoding") = none)
    (h : PaddedHead message front lines back)
    (hr : Receives beyond reset (paddedText message lines back)
      ⟨.messageReady, .finished received chunkBuffer, left⟩) :
    back = 0 ∧ received = readOf message lines := by
  have hlegible := padded_legible h.headers hw.headers
  cases back with
  | zero =>
    obtain ⟨chunkBuffer', hr'⟩ := receives_reads beyond (reads_padded hw hne hlength hencoding h) []
    rw [List.append_nil] at hr'
    cases (hr _ (le_refl _)).symm.trans (hr' _ (le_refl _))
    exact ⟨rfl, rfl⟩
  | succ back =>
    rw [paddedText, List.append_assoc] at hr
    obtain ⟨n, started, hn, _, hblock⟩ := ready_startLine hr
    cases (find_line (notMem_startLine hw.start) _).symm.trans hn
    have hrest : (startLine message ++ (crlf ++
        (headerLines lines ++ (List.replicate (back + 1) 0 ++ crlf)))).drop
          ((startLine message).length + 2) =
            headerLines lines ++ 0 :: (List.replicate back 0 ++ crlf) := by
      rw [← List.drop_drop, List.drop_left]
      rfl
    rw [hrest] at hblock
    obtain ⟨m, _, hm, _⟩ := ready_block hblock
      (headerLines_ne_crlf (List.replicate back 0 ++ crlf) hlegible)
    rw [find_eq (by decide), firstIndex_padded hlegible] at hm
    cases hm

/-- The fields that are kept. -/
theorem find_readOf {names : List (List UInt8)} {key : List UInt8}
    (hkey : (rank key).head? ≠ some (charRank 0)) (hmem : key ∈ names)
    (h : PaddedHead message front lines back) (hkeeps : KeepsFields names message) :
    (readOf message lines).headers.find key = (readBack message).headers.find key := by
  rw [← readOf_entries]
  exact find_padded hkey hmem h.headers h.startLine hkeeps rfl

theorem keeps_of_find {names : List (List UInt8)}
    (hnames : ∀ key ∈ names, (rank key).head? ≠ some (charRank 0))
    (h : PaddedHead message front lines back) (hback : back = 0)
    (hread : ∀ key ∈ names, (readOf message lines).headers.find key ≠ none) :
    KeepsFields names message :=
  undisturbed_padded hnames h.headers hback h.startLine message.headers.sorted
    fun key hkey _ => hread key hkey

/-- A head that keeps its fields, and the end of which is there. -/
theorem keeps_back {names : List (List UInt8)} (h : PaddedHead message front lines back)
    (hkeeps : KeepsFields names message) : back = 0 :=
  undisturbed_back h.headers h.startLine hkeeps

/-- A message without a body, as `sendMessage` puts it out. -/
theorem sendMessage_padded (hw : Plain message) (hbody : message.body = [])
    (hsize : startLineRoom message + headersRoom message.headers.entries < 2 ^ 60 + 2 ^ 10) :
    ∃ front lines back, PaddedHead message front lines back ∧
      HttpProtocol.sendMessage true message = [paddedText message lines back] := by
  have hread : (DynamicBuffer.new 1024 1024).readable = [] :=
    (DynamicBuffer.holds_new 1024 1024).readable_eq
  have hzero : (DynamicBuffer.new 1024 1024).readableBytes = 0 := rfl
  obtain ⟨d', front, lines, back, hd', hlines, hread'⟩ :=
    writeMessage_padded hw hbody (@fresh_new 1024 (by decide)) (by rw [hzero]; omega)
  refine ⟨front, lines, back, hlines, ?_⟩
  unfold HttpProtocol.sendMessage
  rw [if_pos rfl, hd']
  dsimp only
  rw [hread', hread, List.nil_append]

end Read

end HttpProtocol

end Brickred
