import NoteStencil.Proofs.NoteFields
import NoteStencil.Proofs.Quotes
import NoteStencil.Toml.Document

/-! Documents that hold texts come back. A line is read as the tokens it was written from, and statement by statement they put
the same keys with the same texts into the document and into the table that a header opens. -/

namespace NoteStencil
namespace Toml

variable {c : Char} {key text : String} {tail chars : List Char} {ts : List Token}

/-! ### Tokens -/

theorem tokens?_mark {mark : Token} (tail : List Char) (h : mark? c = some mark) :
    tokens? (c :: tail) = (tokens? tail).map (mark :: ·) := by
  rw [tokens?, h]

theorem tokens?_space (h : ∀ d, tail.head? = some d → isGap d = false) :
    tokens? (' ' :: tail) = (tokens? tail).map (.gap [' '] :: ·) := by
  have hnone : tail.takeWhile isGap = [] := by
    cases tail with
    | nil => rfl
    | cons d rest => simp [h d rfl]
  rw [tokens?]
  simp [mark?, isGap, hnone]

theorem write_eq_cons (q : Quoting) (chars : List Char) : ∃ more, q.write chars = q.mark :: more := by
  cases q <;> exact ⟨_, rfl⟩

theorem tokens?_write {q : Quoting} (h : q.Holds chars) (htail : ∀ d, tail.head? = some d → isQuote d = false) :
    tokens? (q.write chars ++ tail) = (tokens? tail).map (q.token (String.ofList chars) :: ·) := by
  have hread := readQuoted_write h htail
  obtain ⟨more, hmore⟩ := write_eq_cons q chars
  rw [hmore] at hread ⊢
  have hmark : mark? q.mark = none ∧ q.mark ≠ '\r' ∧ isGap q.mark = false ∧ q.mark ≠ '#' ∧ isQuote q.mark = true := by
    cases q <;> decide
  obtain ⟨hnone, hreturn, hgap, hcomment, hquote⟩ := hmark
  rw [List.cons_append] at hread ⊢
  rw [tokens?, hnone]
  simp [hreturn, hgap, hcomment, hquote, hread]

/-- A character of a plain key is none that ends a word or opens something else. -/
theorem isKeyChar_apart (h : isKeyChar c = true) :
    mark? c = none ∧ c ≠ '\r' ∧ isGap c = false ∧ c ≠ '#' ∧ isQuote c = false := by
  have hne {d : Char} (hd : isKeyChar d = false) : c ≠ d := by
    rintro rfl
    rw [hd] at h
    cases h
  have hmark : mark? c = none := by
    unfold mark?
    split
    · exact absurd rfl (hne rfl)
    · exact absurd rfl (hne rfl)
    · exact absurd rfl (hne rfl)
    · exact absurd rfl (hne rfl)
    · exact absurd rfl (hne rfl)
    · exact absurd rfl (hne rfl)
    · exact absurd rfl (hne rfl)
    · exact absurd rfl (hne rfl)
    · rfl
  refine ⟨hmark, hne rfl, ?_, hne rfl, ?_⟩
  · simp only [isGap, Bool.or_eq_false_iff, beq_eq_false_iff_ne]
    exact ⟨hne rfl, hne rfl⟩
  · simp only [isQuote, Bool.or_eq_false_iff, beq_eq_false_iff_ne]
    exact ⟨hne rfl, hne rfl⟩

theorem isWordChar_of_isKeyChar (h : isKeyChar c = true) : isWordChar c = true := by
  obtain ⟨hmark, hreturn, hgap, hcomment, -⟩ := isKeyChar_apart h
  simp [isWordChar, hmark, hreturn, hgap, hcomment]

theorem tokens?_word (hne : chars ≠ []) (hkey : ∀ c ∈ chars, isKeyChar c = true)
    (htail : ∀ d, tail.head? = some d → isWordChar d = false) :
    tokens? (chars ++ tail) = (tokens? tail).map (.word chars :: ·) := by
  obtain ⟨c, more, rfl⟩ := List.exists_cons_of_ne_nil hne
  obtain ⟨hc, hmore⟩ := List.forall_mem_cons.1 hkey
  obtain ⟨hmark, hreturn, hgap, hcomment, hquote⟩ := isKeyChar_apart hc
  have hstop : tail.takeWhile isWordChar = [] := by
    cases tail with
    | nil => rfl
    | cons d rest => simp [htail d rfl]
  have hword : (more ++ tail).takeWhile isWordChar = more := by
    rw [List.takeWhile_append_of_pos fun d hd => isWordChar_of_isKeyChar (hmore d hd), hstop, List.append_nil]
  rw [List.cons_append, tokens?, hmark]
  simp [hreturn, hgap, hcomment, hquote, hword]

/-- What a key is read as: a word, unless it needs quotes. -/
def keyToken (key : String) : Token := if isBareKey key.toList then .word key.toList else .quoted key

def entryTokens (key text : String) : List Token :=
  [keyToken key, .gap [' '], .equals, .gap [' '], (quotingOf text.toList).token text, .newline]

def headerTokens (key : String) : List Token := [.openBracket, keyToken key, .closeBracket, .newline]

theorem tokens?_writeKey (key : String) (hquote : ∀ d, tail.head? = some d → isQuote d = false)
    (hword : ∀ d, tail.head? = some d → isWordChar d = false) :
    tokens? (writeKey key ++ tail) = (tokens? tail).map (keyToken key :: ·) := by
  unfold writeKey keyToken
  split
  · next hbare =>
    simp only [isBareKey, Bool.and_eq_true, decide_eq_true_eq, List.all_eq_true] at hbare
    exact tokens?_word hbare.1 hbare.2 hword
  · have hwritten := tokens?_write (holds_keyQuotingOf key.toList) hquote
    rw [String.ofList_toList] at hwritten
    rw [hwritten]
    unfold keyQuotingOf
    simp only []
    split
    · rfl
    · split
      · rfl
      · rfl

theorem tokens?_entry (key text : String) (tail : List Char) :
    tokens? (writeEntry key text ++ tail) = (tokens? tail).map (entryTokens key text ++ ·) := by
  have hentry : writeEntry key text ++ tail = writeKey key ++ ' ' :: '=' :: ' ' :: (writeText text ++ '\n' :: tail) := by
    simp [writeEntry]
  have htext : tokens? (writeText text ++ '\n' :: tail) =
      (tokens? ('\n' :: tail)).map ((quotingOf text.toList).token text :: ·) := by
    have hfeed : ∀ d, ('\n' :: tail).head? = some d → isQuote d = false := by simp [isQuote]
    have hwritten := tokens?_write (holds_quotingOf text.toList) hfeed
    rwa [String.ofList_toList] at hwritten
  have hopening : ∀ d, (writeText text ++ '\n' :: tail).head? = some d → isGap d = false := by
    intro d hd
    obtain ⟨more, hmore⟩ := write_eq_cons (quotingOf text.toList) text.toList
    rw [writeText, hmore] at hd
    obtain rfl := Option.some.inj hd
    cases quotingOf text.toList <;> rfl
  rw [hentry, tokens?_writeKey key (by simp [isQuote]) (by simp [isWordChar, isGap]), tokens?_space (by simp [isGap]),
    tokens?_mark _ rfl, tokens?_space hopening, htext, tokens?_mark _ rfl]
  simp only [Option.map_map]
  rfl

theorem tokens?_header (key : String) (tail : List Char) :
    tokens? (writeHeader key ++ tail) = (tokens? tail).map (headerTokens key ++ ·) := by
  have hheader : writeHeader key ++ tail = '[' :: (writeKey key ++ ']' :: '\n' :: tail) := by
    simp [writeHeader]
  rw [hheader, tokens?_mark _ rfl, tokens?_writeKey key (by simp [isQuote]) (by simp [isWordChar, mark?]),
    tokens?_mark _ rfl, tokens?_mark _ rfl]
  simp only [Option.map_map]
  rfl

theorem tokens?_entries (entries : List (String × String)) (tail : List Char) :
    tokens? (writeEntries entries ++ tail) =
      (tokens? tail).map (entries.flatMap (fun e => entryTokens e.1 e.2) ++ ·) := by
  induction entries with
  | nil => simp [writeEntries]
  | cons e rest ih =>
    have hcons : writeEntries (e :: rest) ++ tail = writeEntry e.1 e.2 ++ (writeEntries rest ++ tail) := by
      simp [writeEntries]
    rw [hcons, tokens?_entry, ih, Option.map_map]
    simp [Function.comp_def]

/-! ### Statements -/

/-- The tokens complete what has been read to this document. -/
def Completes (d : Draft) (ts : List Token) (t : Entries) : Prop :=
  ∀ fuel, ts.length < fuel → Draft.statements? fuel d ts = some t

theorem keyToken_cases (key : String) :
    (∃ chars, keyToken key = .word chars ∧ String.ofList chars = key ∧ chars.all isKeyChar = true) ∨
      keyToken key = .quoted key := by
  unfold keyToken
  split
  · next hbare =>
    simp only [isBareKey, Bool.and_eq_true] at hbare
    exact .inl ⟨key.toList, rfl, String.ofList_toList, hbare.2⟩
  · exact .inr rfl

/-- A key is taken for nothing else where a statement may stand. -/
theorem keyToken_apart (key : String) :
    keyToken key ≠ .newline ∧ keyToken key ≠ .openBracket ∧ ∀ blanks, keyToken key ≠ .gap blanks := by
  rcases keyToken_cases key with ⟨chars, htoken, -, -⟩ | htoken
  · rw [htoken]
    exact ⟨nofun, nofun, nofun⟩
  · rw [htoken]
    exact ⟨nofun, nofun, nofun⟩

theorem keyPart?_keyToken (key : String) (rest : List Token) : keyPart? (keyToken key :: rest) = some (key, skipGap rest) := by
  rcases keyToken_cases key with ⟨chars, htoken, hkey, hall⟩ | htoken
  · simp only [htoken, keyPart?, skipGap, hall, if_true, hkey]
  · simp only [htoken, keyPart?, skipGap]

theorem key?_keyToken (key : String) (rest : List Token) (h : ∀ more, skipGap rest ≠ .dot :: more) :
    key? (keyToken key :: rest) = some ([key], skipGap rest) := by
  rw [key?, keyParts?, keyPart?_keyToken]
  split
  · next he => cases he
  · next he =>
    obtain ⟨rfl, hrest⟩ := Prod.mk.inj (Option.some.inj he)
    exact absurd hrest (h _)
  · next he =>
    obtain ⟨rfl, rfl⟩ := Prod.mk.inj (Option.some.inj he)
    rfl

theorem statement?_entry (d : Draft) (key text : String) (ts : List Token) :
    d.statement? (entryTokens key text ++ ts) = (d.assign? [key] (.text text)).map (·, .newline :: ts) := by
  have hkey : key? (entryTokens key text ++ ts) =
      some ([key], .equals :: .gap [' '] :: (quotingOf text.toList).token text :: .newline :: ts) :=
    key?_keyToken key (.gap [' '] :: .equals :: .gap [' '] :: (quotingOf text.toList).token text :: .newline :: ts) nofun
  have hvalue (fuel depth : Nat) : value? (fuel + 1) depth (skipGap (.gap [' '] :: (quotingOf text.toList).token text ::
      .newline :: ts)) = some (.text text, .newline :: ts) := by
    cases quotingOf text.toList <;> rfl
  obtain ⟨-, hbracket, -⟩ := keyToken_apart key
  rw [Draft.statement?]
  · simp only [hkey, hvalue]
  · intro rest he
    exact hbracket (List.cons.inj he).1
  · intro rest he
    exact hbracket (List.cons.inj he).1

theorem statement?_header (d : Draft) (key : String) (ts : List Token) :
    d.statement? (headerTokens key ++ ts) = (d.open? openTable [key]).map (·, .newline :: ts) := by
  have hkey : key? (keyToken key :: .closeBracket :: .newline :: ts) = some ([key], .closeBracket :: .newline :: ts) :=
    key?_keyToken key _ nofun
  obtain ⟨-, hbracket, -⟩ := keyToken_apart key
  simp only [headerTokens, List.cons_append, List.nil_append]
  rw [Draft.statement?, hkey]
  intro rest he
  exact hbracket (List.cons.inj he).1

theorem completes_nil (d : Draft) : Completes d [] d.root := by
  intro fuel hfuel
  obtain ⟨fuel, rfl⟩ : ∃ n, fuel = n + 1 := ⟨fuel - 1, by omega⟩
  rfl

theorem completes_newline {d : Draft} {t : Entries} (h : Completes d ts t) : Completes d (.newline :: ts) t := by
  intro fuel hfuel
  obtain ⟨fuel, rfl⟩ : ∃ n, fuel = n + 1 := ⟨fuel - 1, by omega⟩
  exact h fuel (Nat.lt_of_succ_lt_succ hfuel)

/-- A statement on a line of its own, and what comes behind it. -/
theorem completes_statement {d d' : Draft} {t : Entries} {first : Token} {line : List Token}
    (hgap : ∀ blanks, first ≠ .gap blanks) (hnewline : first ≠ .newline)
    (hstatement : d.statement? (first :: line ++ ts) = some (d', .newline :: ts)) (h : Completes d' ts t) :
    Completes d (first :: line ++ ts) t := by
  intro fuel hfuel
  obtain ⟨fuel, rfl⟩ : ∃ n, fuel = n + 1 := ⟨fuel - 1, by omega⟩
  have hskip : skipGap (first :: line ++ ts) = first :: line ++ ts := by
    rw [List.cons_append, skipGap]
    exact fun blanks rest he => hgap blanks (List.cons.inj he).1
  have hrest : ts.length < fuel := by
    simp only [List.cons_append, List.length_cons, List.length_append] at hfuel
    omega
  rw [Draft.statements?, hskip]
  split
  · next he => cases he
  · next he => exact absurd (List.cons.inj he).1 hnewline
  · rw [hstatement]
    exact h fuel hrest

theorem completes_entry {d d' : Draft} {t : Entries} (hassign : d.assign? [key] (.text text) = some d') (h : Completes d' ts t) :
    Completes d (entryTokens key text ++ ts) t := by
  have hstatement := statement?_entry d key text ts
  rw [hassign] at hstatement
  obtain ⟨hnewline, -, hgap⟩ := keyToken_apart key
  exact completes_statement hgap hnewline hstatement h

theorem completes_header {d d' : Draft} {t : Entries} (hopen : d.open? openTable [key] = some d') (h : Completes d' ts t) :
    Completes d (headerTokens key ++ ts) t := by
  have hstatement := statement?_header d key ts
  rw [hopen] at hstatement
  exact completes_statement nofun nofun hstatement h

/-! ### Tables -/

/-- Texts under their keys. -/
def textEntries (entries : List (String × String)) : Entries := entries.map fun e => (e.1, .text e.2)

/-- A draft that grows with the table that its statements go to. -/
def Takes (draft : Entries → Draft) : Prop :=
  ∀ inner key v, inner.has key = false → (draft inner).assign? [key] v = some (draft (inner.put key v))

theorem takes_root : Takes fun root => { root } := by
  intro root key v hfresh
  simp only [Draft.assign?, within, assign, hfresh]
  rfl

theorem find?_last {front : Entries} (v : Value) (h : ∀ e ∈ front, (key == e.1) = false) :
    Table.find? (front ++ [(key, v)]) key = some v := by
  have hnone : List.find? (fun e => key == e.1) front = none := by
    rw [List.find?_eq_none]
    intro e he
    rw [h e he]
    exact Bool.false_ne_true
  simp [Table.find?, List.find?_append, hnone]

theorem put_again {front : Entries} (v w : Value) (h : ∀ e ∈ front, (key == e.1) = false) :
    Table.put key w (front ++ [(key, v)]) = front ++ [(key, w)] := by
  induction front with
  | nil => simp [Table.put]
  | cons e rest ih =>
    obtain ⟨he, hrest⟩ := List.forall_mem_cons.1 h
    rw [List.cons_append, Table.put, he, if_neg Bool.false_ne_true, ih hrest, List.cons_append]

/-- Statements behind a header go to its table, which is the last one. -/
theorem takes_section {front : Entries} (h : ∀ e ∈ front, (key == e.1) = false) :
    Takes fun inner => { root := front ++ [(key, .table .headed inner)], opened := [key] } := by
  intro inner k v hfresh
  simp only [Draft.assign?, within, find?_last _ h, assign, hfresh]
  simp [put_again _ _ h]

theorem open_section {front : Entries} (h : ∀ e ∈ front, (key == e.1) = false) :
    Draft.open? { root := front } openTable [key] =
      some { root := front ++ [(key, .table .headed [])], opened := [key] } := by
  have hnone : Table.find? front key = none := by
    rw [Table.find?, Option.map_eq_none_iff, List.find?_eq_none]
    intro e he
    rw [h e he]
    exact Bool.false_ne_true
  simp only [Draft.open?, List.getLast?_singleton, List.dropLast_singleton, within, openTable, hnone,
    Table.put_last _ h, Option.map_some]

theorem completes_entries {draft : Entries → Draft} {t : Entries} (htakes : Takes draft) (entries : List (String × String)) :
    ∀ inner, Table.Distinct (inner ++ textEntries entries) → Completes (draft (inner ++ textEntries entries)) ts t →
      Completes (draft inner) (entries.flatMap (fun e => entryTokens e.1 e.2) ++ ts) t := by
  induction entries with
  | nil =>
    intro inner _ h
    rwa [textEntries, List.map_nil, List.append_nil] at h
  | cons e rest ih =>
    intro inner hdistinct h
    have hlast : ∀ d ∈ inner, (e.1 == d.1) = false := by
      intro d hd
      exact (List.pairwise_append.1 hdistinct).2.2 d hd (e.1, .text e.2) (by simp [textEntries])
    have hassign := htakes inner e.1 (.text e.2) (Table.has_eq_false_iff.2 hlast)
    have hput : inner ++ textEntries (e :: rest) = inner.put e.1 (.text e.2) ++ textEntries rest := by
      simp [Table.put_last _ hlast, textEntries]
    rw [hput] at hdistinct h
    rw [List.flatMap_cons, List.append_assoc]
    exact completes_entry hassign (ih _ hdistinct h)

/-! ### Documents -/

/-- How a document of some fields and one table is written, with a blank line between them. -/
def writeDocument (fields : List (String × String)) (key : String) (entries : List (String × String)) : List Char :=
  writeEntries fields ++ if entries = [] then []
    else (if fields = [] then [] else ['\n']) ++ writeHeader key ++ writeEntries entries

/-- What such a document says. -/
def documentEntries (fields : List (String × String)) (key : String) (entries : List (String × String)) : Entries :=
  textEntries fields ++ if entries = [] then [] else [(key, .table .headed (textEntries entries))]

/-- The tokens behind the fields. -/
def sectionTokens (fields : List (String × String)) (key : String) (entries : List (String × String)) : List Token :=
  if entries = [] then []
  else (if fields = [] then [] else [.newline]) ++ headerTokens key ++ entries.flatMap fun e => entryTokens e.1 e.2

/-- No key starts with the mark of the byte order. -/
theorem withoutMark_writeKey (key : String) (tail : List Char) : withoutMark (writeKey key ++ tail) = writeKey key ++ tail := by
  have hplain {first : Char} (more : List Char) (h : first ≠ '\ufeff') : withoutMark (first :: more) = first :: more := by
    rw [withoutMark]
    intro rest he
    exact h (List.cons.inj he).1
  unfold writeKey
  split
  · next hbare =>
    simp only [isBareKey, Bool.and_eq_true, decide_eq_true_eq, List.all_eq_true] at hbare
    obtain ⟨first, more, hkey⟩ := List.exists_cons_of_ne_nil hbare.1
    rw [hkey]
    refine hplain _ ?_
    rintro rfl
    exact absurd (hbare.2 '\ufeff' (by simp [hkey])) (by decide)
  · obtain ⟨more, hmore⟩ := write_eq_cons (keyQuotingOf key.toList) key.toList
    rw [hmore]
    refine hplain _ ?_
    cases keyQuotingOf key.toList <;> decide

theorem withoutMark_writeDocument (fields : List (String × String)) (key : String) (entries : List (String × String)) :
    withoutMark (writeDocument fields key entries) = writeDocument fields key entries := by
  cases fields with
  | nil =>
    unfold writeDocument
    split
    · rfl
    · rfl
  | cons e rest =>
    simp only [writeDocument, writeEntries, writeEntry, List.flatMap_cons, List.append_assoc]
    exact withoutMark_writeKey e.1 _

theorem tokens?_writeDocument (fields : List (String × String)) (key : String) (entries : List (String × String)) :
    tokens? (writeDocument fields key entries) =
      some (fields.flatMap (fun e => entryTokens e.1 e.2) ++ sectionTokens fields key entries) := by
  have hnil : tokens? [] = some [] := by rw [tokens?]
  have hentries : tokens? (writeEntries entries) = some (entries.flatMap fun e => entryTokens e.1 e.2) := by
    have htokens := tokens?_entries entries []
    rwa [List.append_nil, hnil, Option.map_some, List.append_nil] at htokens
  rw [writeDocument, tokens?_entries, sectionTokens]
  by_cases hempty : entries = []
  · rw [if_pos hempty, if_pos hempty, hnil]
    rfl
  · rw [if_neg hempty, if_neg hempty]
    by_cases hfields : fields = []
    · rw [if_pos hfields, if_pos hfields, List.nil_append, List.nil_append, tokens?_header, hentries]
      rfl
    · rw [if_neg hfields, if_neg hfields, List.append_assoc, List.singleton_append, tokens?_mark _ rfl, tokens?_header,
        hentries]
      rfl

theorem completes_section {fields entries : List (String × String)} {key : String}
    (hfields : Table.Distinct (documentEntries fields key entries)) (hentries : Table.Distinct (textEntries entries)) :
    Completes { root := textEntries fields } (sectionTokens fields key entries) (documentEntries fields key entries) := by
  unfold sectionTokens documentEntries
  unfold documentEntries at hfields
  by_cases hempty : entries = []
  · rw [if_pos hempty, if_pos hempty, List.append_nil]
    exact completes_nil _
  · rw [if_neg hempty] at hfields
    rw [if_neg hempty, if_neg hempty]
    have hlast : ∀ e ∈ textEntries fields, (key == e.1) = false := by
      intro e he
      exact (List.pairwise_append.1 hfields).2.2 e he (key, .table .headed (textEntries entries)) (List.mem_singleton.2 rfl)
    have hbody : Completes { root := textEntries fields } (headerTokens key ++ entries.flatMap fun e => entryTokens e.1 e.2)
        (textEntries fields ++ [(key, .table .headed (textEntries entries))]) := by
      apply completes_header (open_section hlast)
      have hsection := completes_entries (takes_section hlast) entries [] hentries (completes_nil _)
      rwa [List.append_nil] at hsection
    split
    · exact hbody
    · exact completes_newline hbody

/-- Fields and one table of texts come back as they were written, when no key stands twice. -/
theorem parse?_writeDocument {fields entries : List (String × String)} {key : String}
    (hfields : Table.Distinct (documentEntries fields key entries)) (hentries : Table.Distinct (textEntries entries)) :
    parse? (String.ofList (writeDocument fields key entries)) = some (documentEntries fields key entries) := by
  have hfront : Table.Distinct (textEntries fields) := (List.pairwise_append.1 hfields).1
  have hcompletes := completes_entries takes_root fields [] hfront (completes_section hfields hentries)
  rw [parse?, String.toList_ofList, withoutMark_writeDocument, tokens?_writeDocument]
  exact hcompletes _ (Nat.lt_succ_self _)

end Toml
end NoteStencil
