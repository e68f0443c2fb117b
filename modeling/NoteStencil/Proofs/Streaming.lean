import NoteStencil.Proofs.Described
import NoteStencil.Proofs.Filling
import NoteStencil.Proofs.LineFeeds
import NoteStencil.Proofs.Splitting

/-! Two ways to read the lines of a file: as a stream, each line decoded by itself, and as a text that is decoded whole and
then cut. A line feed is never part of another character, so both find the same lines, and a file that is no text has a
line that is none. -/

namespace NoteStencil

open FileSystem

/-! ### Characters of one octet -/

section Ascii

variable {t : Char} {cs : List Char}

def octet (t : Char) : UInt8 := UInt8.ofNat t.val.toNat

/-- A character of more octets than one has none that could be a character of its own. -/
theorem encoded_cases (c : Char) :
    (c.val.toNat < 0x80 ∧ String.utf8EncodeChar c = [octet c]) ∨ ∀ b ∈ String.utf8EncodeChar c, 0x80 ≤ b.toNat := by
  unfold String.utf8EncodeChar octet
  simp only
  repeat' split
  · exact .inl ⟨by omega, rfl⟩
  all_goals
    right
    simp only [List.forall_mem_cons, List.not_mem_nil, false_implies, implies_true, and_true, UInt8.toNat_ofNat']
    omega

theorem encoded_octet (ht : t.val.toNat < 0x80) : String.utf8EncodeChar t = [octet t] := by
  unfold String.utf8EncodeChar octet
  exact if_pos (Nat.le_of_lt_succ ht)

theorem toNat_octet (ht : t.val.toNat < 0x80) : (octet t).toNat = t.val.toNat :=
  UInt8.toNat_ofNat_of_lt' (Nat.lt_trans ht (by decide))

theorem mem_encoded (ht : t.val.toNat < 0x80) {c : Char} : octet t ∈ String.utf8EncodeChar c ↔ t = c := by
  constructor
  · intro h
    rcases encoded_cases c with ⟨hc, hone⟩ | hmore
    · rw [hone, List.mem_singleton] at h
      have hvalue : t.val.toNat = c.val.toNat := by rw [← toNat_octet ht, h, toNat_octet hc]
      rw [← Char.ofNat_toNat t, ← Char.ofNat_toNat c]
      exact congrArg Char.ofNat hvalue
    · have hlarge := hmore _ h
      rw [toNat_octet ht] at hlarge
      omega
  · rintro rfl
    rw [encoded_octet ht]
    exact List.mem_singleton_self _

theorem mem_encodedAll (ht : t.val.toNat < 0x80) : octet t ∈ cs.flatMap String.utf8EncodeChar ↔ t ∈ cs := by
  simp [List.mem_flatMap, mem_encoded ht]

theorem encodedAll_concat (ht : t.val.toNat < 0x80) :
    (cs ++ [t]).flatMap String.utf8EncodeChar = cs.flatMap String.utf8EncodeChar ++ [octet t] := by
  rw [List.flatMap_append, List.flatMap_singleton, encoded_octet ht]

theorem encodedAll_eq_nil (h : cs.flatMap String.utf8EncodeChar = []) : cs = [] := by
  cases cs with
  | nil => rfl
  | cons c rest => exact absurd (List.append_eq_nil_iff.1 h).1 String.utf8EncodeChar_ne_nil

theorem getLast?_encodedAll (ht : t.val.toNat < 0x80) :
    (cs.flatMap String.utf8EncodeChar).getLast? = some (octet t) ↔ cs.getLast? = some t := by
  rcases List.eq_nil_or_concat cs with rfl | ⟨front, c, rfl⟩
  · simp
  · have hlast : ((front ++ [c]).flatMap String.utf8EncodeChar).getLast? = (String.utf8EncodeChar c).getLast? := by
      rw [List.flatMap_append, List.flatMap_singleton, List.getLast?_append,
        List.getLast?_eq_some_getLast String.utf8EncodeChar_ne_nil, Option.some_or]
    rw [List.concat_eq_append, List.getLast?_concat, hlast]
    constructor
    · intro h
      rw [(mem_encoded ht).1 (List.mem_of_getLast? h)]
    · intro h
      rw [Option.some.inj h, encoded_octet ht]
      rfl

theorem cutAt_encodedAll (ht : t.val.toNat < 0x80) :
    cutAt (octet t) (cs.flatMap String.utf8EncodeChar) =
      (cutAt t cs).map fun piece => (piece.1.flatMap String.utf8EncodeChar, piece.2) := by
  induction cs using pieces_induction t with
  | blank => rfl
  | last cs hopen hne =>
    have hclear : octet t ∉ cs.flatMap String.utf8EncodeChar := fun h => hopen ((mem_encodedAll ht).1 h)
    have hsome : cs.flatMap String.utf8EncodeChar ≠ [] := fun h => hne (encodedAll_eq_nil h)
    rw [cutAt_open hclear hsome, cutAt_open hopen hne]
    rfl
  | closed cs rest hclosed ih =>
    have hclear : octet t ∉ cs.flatMap String.utf8EncodeChar := fun h => hclosed ((mem_encodedAll ht).1 h)
    rw [List.flatMap_append, List.flatMap_cons, encoded_octet ht, List.singleton_append, cutAt_closed _ hclear, ih,
      cutAt_closed _ hclosed]
    rfl

theorem withoutReturn_encodedAll (ht : t.val.toNat < 0x80) (closed : Bool) :
    withoutReturn (octet t) (cs.flatMap String.utf8EncodeChar, closed) =
      (withoutReturn t (cs, closed)).flatMap String.utf8EncodeChar := by
  unfold withoutReturn
  simp only [getLast?_encodedAll ht]
  split
  · next h =>
    obtain ⟨front, rfl⟩ := List.getLast?_eq_some_iff.1 h.2
    rw [encodedAll_concat ht, List.dropLast_concat, List.dropLast_concat]
  · rfl

theorem cutLines_encodedAll {feed ret : Char} (hfeed : feed.val.toNat < 0x80) (hret : ret.val.toNat < 0x80) :
    cutLines (octet feed) (octet ret) (cs.flatMap String.utf8EncodeChar) =
      (cutLines feed ret cs).map (·.flatMap String.utf8EncodeChar) := by
  rw [cutLines, cutLines, cutAt_encodedAll hfeed, List.map_map, List.map_map]
  exact List.map_congr_left fun piece _ => withoutReturn_encodedAll hret piece.2

end Ascii

/-! ### Lines of a stream -/

/-- The lines of a text, each encoded by itself, are the lines of its octets. -/
theorem octetLines_encodeUtf8 (text : String) : octetLines (encodeUtf8 text) = (textLines text).map .ok := by
  have hcut : cutLines 10 13 (encodeUtf8 text) =
      (cutLines '\n' '\r' text.toList).map (·.flatMap String.utf8EncodeChar) :=
    @cutLines_encodedAll _ '\n' '\r' (by decide) (by decide)
  rw [octetLines, hcut, textLines, List.map_map, List.map_map]
  refine List.map_congr_left fun line _ => ?_
  simp [decodeUtf8, run_encoded]

/-- What a stream gives of a line. -/
def decoded (line : List UInt8) : Except Fault String :=
  match decodeUtf8 line with
  | some text => .ok text
  | none => .error .notUtf8

theorem decoded_eq_ok {line : List UInt8} {text : String} (h : decoded line = .ok text) : line = encodeUtf8 text := by
  unfold decoded at h
  split at h
  · next hline =>
    obtain rfl := Except.ok.inj h
    exact decodeUtf8_eq_some_iff.1 hline
  · cases h

theorem octetLines_closed {xs : List UInt8} (rest : List UInt8) (h : 10 ∉ xs) :
    octetLines (xs ++ 10 :: rest) = decoded (withoutReturn 13 (xs, true)) :: octetLines rest := by
  rw [octetLines, cutLines_closed rest h]
  rfl

theorem octetLines_open {xs : List UInt8} (h : 10 ∉ xs) (hne : xs ≠ []) : octetLines xs = [decoded xs] := by
  rw [octetLines, cutLines, cutAt_open h hne]
  rfl

theorem eq_withoutReturn {α : Type} [DecidableEq α] (ret : α) (xs : List α) (closed : Bool) :
    xs = withoutReturn ret (xs, closed) ∨ xs = withoutReturn ret (xs, closed) ++ [ret] := by
  unfold withoutReturn
  split
  · next h =>
    obtain ⟨front, rfl⟩ := List.getLast?_eq_some_iff.1 h.2
    exact .inr (by rw [List.dropLast_concat])
  · exact .inl rfl

/-- Octets are a text when each of their lines is one: what ends a line is a text too. -/
theorem exists_text_of_octetLines {octets : List UInt8} {lines : List String} (h : octetLines octets = lines.map .ok) :
    ∃ text, octets = encodeUtf8 text := by
  induction octets using pieces_induction (10 : UInt8) generalizing lines with
  | blank => exact ⟨"", rfl⟩
  | last xs hopen hne =>
    rw [octetLines_open hopen hne] at h
    obtain ⟨text, -, htext⟩ := List.map_eq_singleton_iff.1 h.symm
    exact ⟨text, decoded_eq_ok htext.symm⟩
  | closed xs rest hclosed ih =>
    rw [octetLines_closed rest hclosed] at h
    obtain ⟨line, more, -, hline, hmore⟩ := List.map_eq_cons_iff.1 h.symm
    obtain ⟨text, rfl⟩ := ih hmore.symm
    have hencoded := decoded_eq_ok hline.symm
    have hbreak : encodeUtf8 "\n" = [10] := by decide
    have hreturn : encodeUtf8 "\r\n" = [13, 10] := by decide
    -- The line was decoded without its terminator, which has one octet or two.
    rcases eq_withoutReturn 13 xs true with hxs | hxs
    · refine ⟨line ++ "\n" ++ text, ?_⟩
      rw [hxs, hencoded, encodeUtf8_append, encodeUtf8_append, hbreak]
      simp
    · refine ⟨line ++ "\r\n" ++ text, ?_⟩
      rw [hxs, hencoded, encodeUtf8_append, encodeUtf8_append, hreturn]
      simp

theorem octetLines_eq_ok_iff {octets : List UInt8} {lines : List String} :
    octetLines octets = lines.map .ok ↔ (decodeUtf8 octets).map textLines = some lines := by
  constructor
  · intro h
    obtain ⟨text, rfl⟩ := exists_text_of_octetLines h
    rw [octetLines_encodeUtf8] at h
    rw [decodeUtf8_encodeUtf8, Option.map_some, (List.map_inj_right fun _ _ => Except.ok.inj).1 h]
  · intro h
    obtain ⟨text, htext, rfl⟩ := Option.map_eq_some_iff.1 h
    rw [decodeUtf8_eq_some_iff.1 htext, octetLines_encodeUtf8]

/-- Lines that come first in a stream are those of the octets up to a line feed: only the last piece has none, and what is
asked about stands behind. -/
theorem octetLines_append {octets : List UInt8} {lines : List String} {item : Except Fault String} {more : LineSource}
    (h : octetLines octets = lines.map .ok ++ item :: more) :
    ∃ before rest, octets = before ++ rest ∧ (before = [] ∨ before.getLast? = some 10) ∧
      octetLines before = lines.map .ok ∧ octetLines rest = item :: more := by
  induction octets using pieces_induction (10 : UInt8) generalizing lines with
  | blank =>
    have hlength := congrArg List.length h
    simp [octetLines, cutLines, cutAt] at hlength
  | last xs hopen hne =>
    cases lines with
    | nil => exact ⟨[], xs, rfl, .inl rfl, rfl, h⟩
    | cons line lines =>
      rw [octetLines_open hopen hne] at h
      simp at h
  | closed xs rest hclosed ih =>
    cases lines with
    | nil => exact ⟨[], _, rfl, .inl rfl, rfl, h⟩
    | cons line lines =>
      rw [octetLines_closed rest hclosed, List.map_cons, List.cons_append] at h
      obtain ⟨hline, hrest⟩ := List.cons.inj h
      obtain ⟨before, behind, rfl, hfeed, hbefore, hbehind⟩ := ih hrest
      refine ⟨xs ++ 10 :: before, behind, by simp, .inr ?_, ?_, hbehind⟩
      · rcases hfeed with rfl | hfeed
        · simp
        · simp [List.getLast?_cons, hfeed]
      · rw [octetLines_closed before hclosed, hline, hbefore]
        rfl

/-! ### Carriage returns -/

/-- Every line feed with a carriage return before it. -/
def withReturns {α : Type} [DecidableEq α] (feed ret : α) (xs : List α) : List α :=
  xs.flatMap fun x => if x = feed then [ret, feed] else [x]

section Returns

variable {α : Type} [DecidableEq α] {feed ret : α} {xs : List α}

theorem withReturns_of_not_mem (h : feed ∉ xs) : withReturns feed ret xs = xs := by
  induction xs with
  | nil => rfl
  | cons x rest ih =>
    obtain ⟨hx, hrest⟩ : feed ≠ x ∧ feed ∉ rest := by simpa using h
    rw [withReturns, List.flatMap_cons, if_neg (Ne.symm hx), List.singleton_append]
    exact congrArg (x :: ·) (ih hrest)

theorem withoutReturn_of_not_mem {closed : Bool} (h : ret ∉ xs) : withoutReturn ret (xs, closed) = xs :=
  if_neg fun hlast => h (List.mem_of_getLast? hlast.2)

theorem withoutReturn_concat : withoutReturn ret (xs ++ [ret], true) = xs := by
  simp [withoutReturn]

/-- The returns before the line feeds go with them. -/
theorem cutLines_withReturns (hne : feed ≠ ret) (h : ret ∉ xs) :
    cutLines feed ret (withReturns feed ret xs) = cutLines feed ret xs := by
  induction xs using pieces_induction feed with
  | blank => rfl
  | last xs hopen _ => rw [withReturns_of_not_mem hopen]
  | closed xs rest hclosed ih =>
    obtain ⟨hxs, -, hrest⟩ : ret ∉ xs ∧ ret ≠ feed ∧ ret ∉ rest := by simpa using h
    have hfeed : feed ∉ xs ++ [ret] := by simp [hclosed, hne]
    have hsplit : withReturns feed ret (xs ++ feed :: rest) = (xs ++ [ret]) ++ feed :: withReturns feed ret rest := by
      have hfront := @withReturns_of_not_mem _ _ feed ret xs hclosed
      unfold withReturns at hfront ⊢
      rw [List.flatMap_append, List.flatMap_cons, if_pos rfl, hfront]
      simp
    rw [hsplit, cutLines_closed _ hfeed, cutLines_closed _ hclosed, withoutReturn_concat, withoutReturn_of_not_mem hxs,
      ih hrest]

end Returns

theorem octetLines_withReturns {octets : List UInt8} (h : 13 ∉ octets) :
    octetLines (withReturns 10 13 octets) = octetLines octets :=
  congrArg (List.map decoded) (cutLines_withReturns (by decide) h)

/-! ### Readers of files -/

variable {fs : FileSystem} {p : Path} {octets : List UInt8} {lines : List String}

/-- All lines of the stream are read exactly when the file is a text, and then they are its lines. -/
theorem remaining_sourceAt (fs : FileSystem) (p : Path) :
    (Engine.sourceAt fs p).remaining = (fs.textAt p).map textLines := by
  cases hread : fs.read p with
  | error fault =>
    simp only [Engine.sourceAt, textAt, readText, hread]
    rfl
  | ok octets =>
    simp only [Engine.sourceAt, textAt, readText, hread]
    cases htext : decodeUtf8 octets with
    | some text =>
      apply remaining_eq_ok_iff.2
      apply octetLines_eq_ok_iff.2
      rw [htext]
      rfl
    | none =>
      rcases source_cases (octetLines octets) with ⟨lines, hlines⟩ | ⟨lines, fault, rest, hlines⟩
      · rw [octetLines_eq_ok_iff, htext] at hlines
        cases hlines
      · have hmem : .error fault ∈ octetLines octets := by simp [hlines]
        rw [octetLines_error hmem] at hlines
        rw [hlines, remaining_stopped]
        rfl

theorem sourceAt_of_read (h : fs.read p = .ok octets) : Engine.sourceAt fs p = ⟨octetLines octets, p, 0⟩ := by
  rw [Engine.sourceAt, h]

theorem exists?_of_read (h : fs.read p = .ok octets) : fs.exists? p = true := by
  unfold FileSystem.exists? FileSystem.place?
  unfold FileSystem.read at h
  cases hp : fs.locate p with
  | error fault =>
    rw [hp] at h
    cases h
  | ok target =>
    cases target with
    | found place => rfl
    | absent directory name =>
      rw [hp] at h
      cases h

/-- The note of a file is that of the lines of its stream. -/
theorem ofFile_eq_bind (fs : FileSystem) (p : Path) :
    Note.ofFile fs p = (Engine.sourceAt fs p).remaining.bind (Note.ofLines · (some p)) := by
  rw [remaining_sourceAt, Note.ofFile]
  cases fs.textAt p <;> rfl

theorem load_eq_map (h : fs.exists? p = true) :
    Buffer.load fs p = (Engine.sourceAt fs p).remaining.map fun lines => { lines } := by
  rw [remaining_sourceAt, Buffer.load, if_pos h]
  cases fs.textAt p <;> rfl

/-- What a note is made of that has these lines, once they are split. -/
def Note.ofParts (path : Option Path) (s : Split) : Except Failure Note :=
  (Note.entriesOf s (path.getD Note.noOrigin)).map (Note.ofSplit s · path)

theorem ofLines_eq_bind (lines : List String) (path : Option Path) :
    Note.ofLines lines path = (LineCursor.ofLines lines (path.getD Note.noOrigin)).split.bind (Note.ofParts path) := by
  unfold Note.ofLines Note.ofParts Note.entriesOf
  simp only
  cases (LineCursor.ofLines lines (path.getD Note.noOrigin)).split with
  | error failure => rfl
  | ok s =>
    simp only [Except.bind]
    cases s.hasBlock <;> rfl

/-- The note has the block and the body of the split. -/
structure Note.CutAs (n : Note) (s : Split) : Prop where
  hasBlock : n.hasFrontmatter = s.hasBlock
  closing : n.closingLine = s.closingLine
  body : n.body = s.body

/-- Where the lines come from is only told to failures. -/
theorem cutAs_of_ofLines {path : Option Path} {origin : Path} {s : Split} {n : Note}
    (hs : (LineCursor.ofLines lines origin).split = .ok s) (hn : Note.ofLines lines path = .ok n) : n.CutAs s := by
  obtain ⟨t, m, ht, -, rfl⟩ := Note.ofLines_eq_ok_iff.1 hn
  obtain rfl := ht.unique (split_ofLines_iff.1 hs)
  rw [Note.ofSplit_eq]
  exact ⟨rfl, rfl, rfl⟩

/-! ### Files that are no text -/

theorem entriesOf_ne_unreadable {s : Split} {origin q : Path} {fault : Fault} :
    Note.entriesOf s origin ≠ .error (.unreadable q fault) := by
  intro h
  unfold Note.entriesOf at h
  split at h
  · unfold Note.readMapping at h
    split at h <;> cases h
  · cases h

/-- Lines that are there already can only be refused for what they say. -/
theorem ofLines_ne_unreadable {path : Option Path} {q : Path} {fault : Fault} :
    Note.ofLines lines path ≠ .error (.unreadable q fault) := by
  intro h
  rw [ofLines_eq_bind] at h
  rcases split_readable (Eq.refl (LineCursor.ofLines lines (path.getD Note.noOrigin)).rest) with ⟨s, hs⟩ | hunclosed
  · rw [hs] at h
    exact entriesOf_ne_unreadable (map_error h)
  · rw [hunclosed] at h
    cases h

/-- One line that is no text is what the whole file is refused for. -/
theorem failing_iff (h : fs.read p = .ok octets) :
    (∃ fault, .error fault ∈ octetLines octets) ↔
      (Engine.sourceAt fs p).remaining = .error (.unreadable p .notUtf8) := by
  rw [sourceAt_of_read h]
  rcases source_cases (octetLines octets) with ⟨lines, hlines⟩ | ⟨lines, fault, rest, hlines⟩
  · rw [hlines, remaining_eq_ok_iff.2 rfl]
    constructor
    · rintro ⟨fault, hmem⟩
      exact absurd hmem error_not_mem_map_ok
    · intro hfails
      cases hfails
  · have hmem : .error fault ∈ octetLines octets := by simp [hlines]
    refine ⟨fun _ => ?_, fun _ => ⟨fault, hmem⟩⟩
    rw [hlines, remaining_stopped, octetLines_error hmem]

theorem ofFile_fails_iff {fault : Fault} :
    Note.ofFile fs p = .error (.unreadable p fault) ↔ (Engine.sourceAt fs p).remaining = .error (.unreadable p fault) := by
  rw [ofFile_eq_bind]
  cases (Engine.sourceAt fs p).remaining with
  | error failure => simp [Except.bind]
  | ok lines =>
    constructor
    · intro h
      exact absurd h ofLines_ne_unreadable
    · intro h
      cases h

theorem load_fails_iff (h : fs.exists? p = true) {failure : Failure} :
    Buffer.load fs p = .error failure ↔ (Engine.sourceAt fs p).remaining = .error failure := by
  rw [load_eq_map h]
  cases (Engine.sourceAt fs p).remaining <;> simp [Except.map]

/-! ### Both readers -/

/-- What the readers of whole files find at a path. -/
structure WholeLines (fs : FileSystem) (p : Path) (lines : List String) : Prop where
  text : (fs.textAt p).map textLines = .ok lines
  load : Buffer.load fs p = .ok { lines }
  parse : Note.ofFile fs p = Note.ofLines lines (some p)

theorem wholeLines_of_read (h : fs.read p = .ok octets) (hlines : octetLines octets = lines.map .ok) :
    WholeLines fs p lines := by
  have hremaining : (Engine.sourceAt fs p).remaining = .ok lines := by
    rw [sourceAt_of_read h]
    exact remaining_eq_ok_iff.2 hlines
  refine ⟨?_, ?_, ?_⟩
  · rw [← remaining_sourceAt, hremaining]
  · rw [load_eq_map (exists?_of_read h), hremaining]
    rfl
  · rw [ofFile_eq_bind, hremaining]
    rfl

/-- The stream of a file and the readers of the whole file agree: a line that fails is what the whole file is refused for;
without one, the same lines are split, parsed and loaded; and the lines before the first that fails are those of the file
up to there. Carriage returns before all line feeds make no difference. -/
theorem readers_agree (h : fs.read p = .ok octets) :
    let source := Engine.sourceAt fs p
    ((∃ fault, .error fault ∈ source.rest) ↔ Note.ofFile fs p = .error (.unreadable p .notUtf8)) ∧
    ((∃ fault, .error fault ∈ source.rest) ↔ Buffer.load fs p = .error (.unreadable p .notUtf8)) ∧
    (∀ lines : List String, source.rest = lines.map .ok →
      WholeLines fs p lines ∧
      Note.ofFile fs p = source.split.bind (Note.ofParts (some p)) ∧
      (∀ path : Option Path, (Buffer.load fs p).bind (Note.ofBuffer · path) =
        ({ source with origin := path.getD Note.noOrigin } : LineCursor).split.bind (Note.ofParts path)) ∧
      ∀ s, source.split = .ok s → ∀ n,
        (Note.ofFile fs p = .ok n ∨ ∃ path, (Buffer.load fs p).bind (Note.ofBuffer · path) = .ok n) → n.CutAs s) ∧
    (∀ (lines : List String) fault more, source.rest = lines.map .ok ++ .error fault :: more →
      ∃ before rest, octets = before ++ rest ∧ (before = [] ∨ before.getLast? = some 10) ∧
        octetLines rest = .error fault :: more ∧ (decodeUtf8 before).map textLines = some lines ∧
        ∀ fs' p', fs'.read p' = .ok before → WholeLines fs' p' lines) ∧
    (13 ∉ octets → ∀ fs', fs'.read p = .ok (withReturns 10 13 octets) →
      Engine.sourceAt fs' p = source ∧ (fs'.textAt p).map textLines = (fs.textAt p).map textLines ∧
      Buffer.load fs' p = Buffer.load fs p ∧ Note.ofFile fs' p = Note.ofFile fs p) := by
  intro source
  have hsource : source = ⟨octetLines octets, p, 0⟩ := sourceAt_of_read h
  have hexists : fs.exists? p = true := exists?_of_read h
  rw [hsource]
  refine ⟨?_, ?_, ?_, ?_, ?_⟩
  · exact (failing_iff h).trans ofFile_fails_iff.symm
  · exact (failing_iff h).trans (load_fails_iff hexists).symm
  · intro lines hlines
    have hlines : octetLines octets = lines.map .ok := hlines
    have hwhole := wholeLines_of_read h hlines
    have hbuffer (path : Option Path) :
        (Buffer.load fs p).bind (Note.ofBuffer · path) = Note.ofLines lines path := by
      rw [hwhole.load]
      exact congrArg (Note.ofLines · path) (Buffer.slice_all { lines })
    rw [hlines]
    refine ⟨hwhole, ?_, ?_, ?_⟩
    · rw [hwhole.parse, ofLines_eq_bind]
      rfl
    · intro path
      rw [hbuffer, ofLines_eq_bind]
      rfl
    · intro s hs n hn
      rcases hn with hn | ⟨path, hn⟩
      · rw [hwhole.parse] at hn
        exact cutAs_of_ofLines hs hn
      · rw [hbuffer] at hn
        exact cutAs_of_ofLines hs hn
  · intro lines fault more hlines
    obtain ⟨before, rest, hoctets, hfeed, hbefore, hrest⟩ := octetLines_append hlines
    refine ⟨before, rest, hoctets, hfeed, hrest, octetLines_eq_ok_iff.1 hbefore, ?_⟩
    intro fs' p' hread
    exact wholeLines_of_read hread hbefore
  · intro hclear fs' hread
    have hsame : Engine.sourceAt fs' p = ⟨octetLines octets, p, 0⟩ := by
      rw [sourceAt_of_read hread, octetLines_withReturns hclear]
    have hsame' : Engine.sourceAt fs' p = Engine.sourceAt fs p := hsame.trans hsource.symm
    refine ⟨hsame, ?_, ?_, ?_⟩
    · rw [← remaining_sourceAt, hsame', remaining_sourceAt]
    · rw [load_eq_map (exists?_of_read hread), hsame', load_eq_map hexists]
    · rw [ofFile_eq_bind, hsame', ofFile_eq_bind]

/-- A line feed that breaks off a character of two octets ends a line that is no text, with two lines before it. -/
theorem readers_agree_broken :
    let octets := encodeUtf8 "one\r\ntwo\n" ++ [0xC3, 10] ++ encodeUtf8 "three\n"
    let fs : FileSystem := { entries := [(["a"], .file octets)] }
    Note.ofFile fs ⟨"/a"⟩ = .error (.unreadable ⟨"/a"⟩ .notUtf8) ∧
      ∃ before rest, octets = before ++ rest ∧ before.getLast? = some 10 ∧
        octetLines rest = [.error .notUtf8, .ok "three"] ∧ (decodeUtf8 before).map textLines = some ["one", "two"] := by
  intro octets fs
  have hread : fs.read ⟨"/a"⟩ = .ok octets := eq_ok_of_toOption (by decide +kernel)
  obtain ⟨hfile, -, -, hstopped, -⟩ := readers_agree hread
  have hlines : (Engine.sourceAt fs ⟨"/a"⟩).rest =
      (["one", "two"] : List String).map .ok ++ .error .notUtf8 :: [.ok "three"] := by
    rw [sourceAt_of_read hread]
    rfl
  refine ⟨hfile.1 ⟨.notUtf8, by simp [hlines]⟩, ?_⟩
  obtain ⟨before, rest, hoctets, hfeed, hrest, htext, -⟩ := hstopped _ _ _ hlines
  refine ⟨before, rest, hoctets, ?_, hrest, htext⟩
  rcases hfeed with rfl | hfeed
  · cases htext
  · exact hfeed

end NoteStencil
