import Brickred.Http.Verbatim
import Brickred.Http.Head
import Brickred.Http.RoundTrip

/-!
# A line that no `int` counts

For a line of 2^31 bytes or more `print` moves the index to the end of the storage: the line is
followed by its NUL and by what lies there.

* `print_uncounted`, `writeMessage_uncounted` — what is written.
* `split_nul` — the NUL begins a header line.
* `ready_nul` — a message that is read of it has a header whose name begins with a NUL.
-/

set_option autoImplicit false

namespace Brickred

open StringUtil HttpMessage DynamicBuffer

namespace HttpProtocol

/-! ## What is written -/

section Write

variable {d d' : DynamicBuffer} {size : Nat} {text : List UInt8} {message : HttpMessage}

/-- **A text that no `int` counts** is stored in full, and so is its NUL. -/
theorem print_uncounted (hd : d.Sized)
    (hfits : d.readableBytes + size + 2 * d.expandSize < 2 ^ 63) (hlen : text.length < size)
    (hcount : ¬ text.length < 2 ^ 31) : ∃ d' behind, d.print size text = some d' ∧
      d'.readable = d.readable ++ (text ++ 0 :: behind) ∧ d'.buffer.length < 2 ^ 64 := by
  obtain ⟨d₁, hd₁, hread, hroom, _, hsized⟩ := reserve_spec hd (by omega) (fits_of_lt hd hfits)
  have hone : (text ++ ([0] : List UInt8)).length = text.length + 1 := List.length_append
  obtain ⟨d₂, hd₂, hprint⟩ := print_stored hd₁ (hlen.trans_le hroom)
  obtain ⟨_, hindex, hlength, hbehind⟩ := store_behind hd₂
  refine ⟨_, d₁.buffer.drop (d₁.writeIndex + (text.length + 1)), hprint, ?_,
    hlength.trans_lt (hsized.size_lt.trans (by decide))⟩
  rw [readable_write, store_keeps hd₂, hread, hindex, hbehind, hone, List.take_of_length_le,
    List.append_assoc]
  · rfl
  · have := hsized.size_lt
    rw [snprintfCount, if_neg hcount, List.length_append, List.length_drop]
    unfold writableBytes at hroom
    omega

/-- Lines that each leave a byte for the NUL: they are appended up to the first that no `int`
counts. -/
theorem printAll_uncounted : ∀ {lines : List (Nat × List UInt8)} {d d' : DynamicBuffer}, d.Sized →
    (∀ line ∈ lines, line.2.length < line.1) →
    d.readableBytes + (lines.map Prod.fst).sum + 2 * d.expandSize < 2 ^ 63 →
    ¬ (∀ line ∈ lines, line.2.length < 2 ^ 31) → printAll lines d = some d' →
    ∃ line front behind, line :: front <+: lines ∧ d'.buffer.length < 2 ^ 64 ∧
      d'.readable = d.readable ++ ((line :: front).flatMap Prod.snd ++ 0 :: behind)
  | [], _, _, _, _, _, hcount, _ => absurd (fun _ h => absurd h List.not_mem_nil) hcount
  | (size, text) :: lines, d, d', hd, hlen, hfits, hcount, hd' => by
    rw [List.map_cons, List.sum_cons] at hfits
    dsimp only at hfits
    have hshort : text.length < size := hlen _ List.mem_cons_self
    obtain ⟨d₁, hd₁, hrun⟩ := Option.bind_eq_some_iff.1 hd'
    by_cases htext : text.length < 2 ^ 31
    · obtain ⟨d₁', hd₁', hread, hsized, hexp, _⟩ := print_spec hd (by omega) hshort htext
      cases hd₁.symm.trans hd₁'
      have hbytes : d₁.readableBytes = d.readableBytes + text.length := by
        rw [← readable_length, ← readable_length, hread, List.length_append]
      have hrest : ¬ ∀ line ∈ lines, line.2.length < 2 ^ 31 := fun h =>
        hcount (List.forall_mem_cons.2 ⟨htext, h⟩)
      obtain ⟨line, front, behind, hfront, hlength, hread'⟩ := printAll_uncounted hsized
        (fun line h => hlen line (List.mem_cons_of_mem _ h)) (by rw [hexp, hbytes]; omega) hrest hrun
      refine ⟨(size, text), line :: front, behind, List.cons_prefix_cons.2 ⟨rfl, hfront⟩, hlength,
        ?_⟩
      rw [hread', hread, @List.flatMap_cons _ _ (size, text)]
      simp only [List.append_assoc]
    · obtain ⟨d₁', behind, hd₁', hread, hlength⟩ := print_uncounted hd (by omega) hshort htext
      cases hd₁.symm.trans hd₁'
      obtain ⟨rest, hread', _, hlength'⟩ := printAll_grows hlength hrun
      refine ⟨(size, text), [], behind ++ rest, ⟨lines, rfl⟩, hlength', ?_⟩
      rw [hread', hread]
      simp

/-- The lines of a head, each with the bytes reserved for it. -/
def lineTexts (message : HttpMessage) : List (Nat × List UInt8) :=
  (startLineRoom message, startLine message ++ crlf) ::
    message.headers.entries.map fun header =>
      (32 + header.1.length + header.2.length, headerLine header ++ crlf)

theorem lineTexts_short (hcode : IntCode message) :
    ∀ line ∈ lineTexts message, line.2.length < line.1 := by
  rw [lineTexts, List.forall_mem_cons]
  refine ⟨(startLine_length hcode).trans_le (Nat.sub_le _ _), fun line hmem => ?_⟩
  obtain ⟨header, _, rfl⟩ := List.mem_map.1 hmem
  have := headerLine_length header
  dsimp only
  omega

theorem lineTexts_room (message : HttpMessage) :
    ((lineTexts message).map Prod.fst).sum =
      startLineRoom message + headersRoom message.headers.entries := by
  rw [lineTexts, List.map_cons, List.map_map, List.sum_cons]
  rfl

theorem counted_iff_lineTexts :
    Counted message ↔ ∀ line ∈ lineTexts message, line.2.length < 2 ^ 31 := by
  unfold Counted headTexts lineTexts
  simp only [List.forall_mem_append, List.forall_mem_cons, List.forall_mem_map]
  simp

theorem Plain.nulFree (hw : Plain message) : NulFree (message.setBody []) :=
  ⟨hw.start.nulFree, fun header h => ⟨(hw.headers header h).name 0 (by decide),
    (hw.headers header h).value 0 (by decide)⟩, List.not_mem_nil⟩

/-- **A head that is cut** behind its start line or a header. -/
theorem writeMessage_uncounted (hw : Plain message) (hd : Addressable d (message.setBody []))
    (hcount : ¬ Counted message) (hd' : writeMessage (message.setBody []) d = some d') :
    ∃ front behind, front <+: message.headers.entries ∧
      d'.readable = d.readable ++ (startLine message ++ (crlf ++
        (headerLines front ++ 0 :: behind))) := by
  obtain ⟨hsized, hfits⟩ := hd
  have htexts : messageTexts (message.setBody []) = lineTexts message ++ [(2, crlf), (0, [])] :=
    rfl
  have hroom : startLineRoom (message.setBody []) = startLineRoom message := rfl
  have hheaders : (message.setBody []).headers = message.headers := rfl
  rw [hroom, hheaders] at hfits
  rw [writeMessage_eq hw.nulFree, htexts, printAll_append] at hd'
  obtain ⟨d₁, hd₁, hd'⟩ := Option.bind_eq_some_iff.1 hd'
  obtain ⟨line, lines, behind, hlines, hlength, hread⟩ :=
    printAll_uncounted hsized (lineTexts_short hw.start.intCode) (by rw [lineTexts_room]; omega)
      (mt counted_iff_lineTexts.2 hcount) hd₁
  obtain ⟨rest, hread', _⟩ := printAll_grows hlength hd'
  rw [lineTexts, List.cons_prefix_cons] at hlines
  obtain ⟨rfl, hlines⟩ := hlines
  obtain ⟨front, hfront, rfl⟩ := List.prefix_map_iff.1 hlines
  refine ⟨front, behind ++ rest, hfront, ?_⟩
  rw [hread', hread]
  simp [headerLines, List.flatMap_map]

end Write

/-! ## What is read -/

section Read

variable {beyond : Nat → UInt8} {headers : List (List UInt8 × List UInt8)} {behind left : List UInt8}
  {message received : HttpMessage} {chunkBuffer : Option (List UInt8)} {lines : List (List UInt8)}

/-- The first line of a text begins as the text does. -/
theorem splitFrom_cons {b : UInt8} (hb : b ≠ 13) (text : List UInt8) (fuel : Nat) (count : Int) :
    ∃ w, b :: w ∈ splitFrom crlf (-1) fuel count (b :: text) := by
  cases hfirst : Search.firstIndex crlf (b :: text) with
  | none => exact ⟨text, by rw [splitFrom_none hfirst]; exact List.mem_cons_self⟩
  | some n =>
    cases fuel with
    | zero => exact ⟨text, List.mem_cons_self⟩
    | succ fuel =>
      cases n with
      | zero =>
        have hprefix := Search.prefix_at_firstIndex hfirst
        exact absurd (List.cons_prefix_cons.1 hprefix).1.symm hb
      | succ n =>
        refine ⟨text.take n, ?_⟩
        rw [splitFrom_some (by omega) hfirst]
        exact List.mem_cons_self

theorem headerLines_head (behind : List UInt8) (hw : ∀ header ∈ headers, LegibleHeader header) :
    (headerLines headers ++ 0 :: behind).head? ≠ some 13 := by
  cases headers with
  | nil => exact fun h => absurd (Option.some.inj h) (by decide)
  | cons header headers =>
    obtain ⟨c, cs, hcs⟩ := List.exists_cons_of_ne_nil (headerLine_ne_nil header)
    have hc := notMem_headerLine (hw header List.mem_cons_self)
    rw [hcs] at hc
    intro h
    simp only [headerLines, List.flatMap_cons, hcs, List.cons_append, List.head?_cons,
      Option.some_inj] at h
    exact hc (h ▸ List.mem_cons_self)

theorem headerLines_ne_crlf (behind : List UInt8) (hw : ∀ header ∈ headers, LegibleHeader header) :
    (headerLines headers ++ 0 :: behind).take 2 ≠ crlf := fun htake => by
  have hhead := congrArg List.head? htake
  rw [List.head?_take, if_neg (by decide)] at hhead
  exact headerLines_head behind hw hhead

/-- Behind header lines that were written in full, the NUL begins a line. -/
theorem split_nul : ∀ {headers : List (List UInt8 × List UInt8)} {n fuel : Nat} {count : Int},
    (∀ header ∈ headers, LegibleHeader header) →
    Search.firstIndex (crlf ++ crlf) (headerLines headers ++ 0 :: behind) = some n → n < fuel →
    ∃ w, 0 :: w ∈ splitFrom crlf (-1) fuel count ((headerLines headers ++ 0 :: behind).take n)
  | [], n, fuel, count, _, hn, _ => by
    cases n with
    | zero => exact absurd (List.cons_prefix_cons.1 (Search.prefix_at_firstIndex hn)).1 (by decide)
    | succ n => exact splitFrom_cons (by decide) (behind.take n) fuel count
  | header :: headers, n, fuel, count, hw, hn, hfuel => by
    have hline := notMem_headerLine (hw header List.mem_cons_self)
    have htext : headerLines (header :: headers) ++ 0 :: behind =
        headerLine header ++ (crlf ++ (headerLines headers ++ 0 :: behind)) := by
      simp [headerLines]
    have hrest : ∀ header ∈ headers, LegibleHeader header := fun header h =>
      hw header (List.mem_cons_of_mem _ h)
    rw [htext, firstIndex_line hline (headerLines_head behind hrest)] at hn
    obtain ⟨m, hm, rfl⟩ := Option.map_eq_some_iff.1 hn
    obtain ⟨fuel, rfl⟩ := Nat.exists_eq_add_one_of_ne_zero (Nat.ne_zero_of_lt hfuel)
    have hcrlf : (headerLine header ++ crlf).length = (headerLine header).length + 2 :=
      List.length_append
    obtain ⟨w, hw'⟩ := @split_nul headers m fuel (count + 1) hrest hm (by omega)
    refine ⟨w, ?_⟩
    have htake : (headerLine header ++ (crlf ++ (headerLines headers ++ 0 :: behind))).take
        (m + (headerLine header ++ crlf).length) =
          headerLine header ++ (crlf ++ (headerLines headers ++ 0 :: behind).take m) := by
      rw [← List.append_assoc, Nat.add_comm, List.take_length_add_append, List.append_assoc]
    rw [htext, htake]
    have hword := @splitFrom_word [10] 13 (-1) fuel count (headerLine header)
      ((headerLines headers ++ 0 :: behind).take m) (by omega) hline
    exact hword ▸ List.mem_cons_of_mem _ hw'

/-- Each line that is read as a header has a colon. -/
theorem setHeaders_colon : ∀ {lines : List (List UInt8)} {message message' : HttpMessage},
    setHeaders message lines = (message', true) → ∀ line ∈ lines, ∃ colon,
      find line [58] = some colon
  | [], _, _, _ => fun line hmem => absurd hmem List.not_mem_nil
  | line :: lines, message, message', h => by
    rw [setHeaders] at h
    cases hcolon : find line [58] with
    | none =>
      rw [hcolon] at h
      cases h
    | some colon =>
      rw [hcolon] at h
      exact List.forall_mem_cons.2 ⟨⟨colon, hcolon⟩, setHeaders_colon h⟩

theorem lastField_isSome {key line : List UInt8} : ∀ {lines : List (List UInt8)}, line ∈ lines →
    (field key line).isSome = true → (lastField key lines).isSome = true
  | line' :: lines, hmem, hfield => by
    rw [lastField, Option.isSome_or, Bool.or_eq_true]
    rcases List.mem_cons.1 hmem with rfl | hmem
    · exact Or.inr hfield
    · exact Or.inl (lastField_isSome hmem hfield)

theorem trim_nul (w : List UInt8) : ∃ w', trim (0 :: w) = 0 :: w' := by
  have hltrim : ltrim (0 :: w) blanks = 0 :: w := List.dropWhile_cons_of_neg (by decide)
  unfold trim rtrim
  rw [hltrim]
  have hprefix := List.rdropWhile_prefix (· ∈ blanks) (0 :: w)
  cases htrim : (0 :: w).rdropWhile (· ∈ blanks) with
  | nil =>
    have hblank := List.rdropWhile_eq_nil_iff.1 htrim 0 List.mem_cons_self
    exact absurd hblank (by decide)
  | cons b w' =>
    rw [htrim] at hprefix
    rw [(List.cons_prefix_cons.1 hprefix).1]
    exact ⟨w', rfl⟩

/-- The name of a header whose line begins with a NUL. -/
theorem lastField_nul {w : List UInt8} (hset : setHeaders message lines = (received, true))
    (hmem : 0 :: w ∈ lines) : ∃ name, (lastField (0 :: name) lines).isSome = true := by
  obtain ⟨colon, hcolon⟩ := setHeaders_colon hset _ hmem
  obtain ⟨colon, rfl⟩ := Nat.exists_eq_add_one_of_ne_zero fun hzero : colon = 0 => by
    rw [hzero, find_eq (by decide)] at hcolon
    have hprefix := Search.prefix_at_firstIndex hcolon
    exact absurd (List.cons_prefix_cons.1 hprefix).1 (by decide)
  obtain ⟨name, hname⟩ := trim_nul (w.take colon)
  refine ⟨name, lastField_isSome hmem ?_⟩
  rw [field, hcolon, Option.bind_some, List.take_succ_cons, hname, if_pos rfl]
  rfl

/-- A name that begins with a NUL is not one that begins with another character. -/
theorem rank_nul_ne {key : List UInt8} (h : (rank key).head? ≠ some (charRank 0))
    (name : List UInt8) : rank (0 :: name) ≠ rank key := fun heq => h (heq ▸ rfl)

/-- **A head that is cut** is read as a message with a header whose name begins with a NUL, if it is
read as one at all. -/
theorem ready_nul (hw : WellFormedStart message)
    (hheaders : ∀ header ∈ headers, LegibleHeader header)
    (hr : Receives beyond reset
      (startLine message ++ (crlf ++ (headerLines headers ++ 0 :: behind)))
      ⟨.messageReady, .finished received chunkBuffer, left⟩) :
    ∃ name, (received.headers.find (0 :: name)).isSome = true := by
  have hline := find_line (notMem_startLine hw) (headerLines headers ++ 0 :: behind)
  obtain ⟨n, started, hn, _, hblock⟩ := ready_startLine hr
  cases hline.symm.trans hn
  have hrest : (startLine message ++ (crlf ++ (headerLines headers ++ 0 :: behind))).drop
      ((startLine message).length + 2) = headerLines headers ++ 0 :: behind := by
    rw [← List.drop_drop, List.drop_left]
    rfl
  rw [hrest] at hblock
  obtain ⟨m, headed, hm, hset, hsame⟩ :=
    ready_block hblock (headerLines_ne_crlf behind hheaders)
  rw [find_eq (by decide)] at hm
  have hle := Search.firstIndex_le hm (by decide)
  have hlen : ((headerLines headers ++ 0 :: behind).take m).length = m := by
    rw [List.length_take]
    omega
  obtain ⟨w, hmem⟩ := @split_nul _ _ m (m + 1) 0 hheaders hm (Nat.lt_succ_self m)
  rw [split, if_neg (by decide), hlen] at hset
  obtain ⟨name, hname⟩ := lastField_nul hset hmem
  refine ⟨name, ?_⟩
  rw [hsame _ (rank_nul_ne (by decide) name) (rank_nul_ne (by decide) name),
    find_setHeaders _ hset, Option.isSome_or, Option.isSome_map, hname]
  rfl

end Read

end HttpProtocol

end Brickred
