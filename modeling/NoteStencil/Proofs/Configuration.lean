import NoteStencil.Config
import NoteStencil.Proofs.SavedLines
import NoteStencil.Proofs.Sections

/-! A configuration that is saved and loaded is the same again. A field that is left out is one that has the value which its
absence stands for, and the vault, which no file holds, is set anew. -/

namespace NoteStencil

/-! ### Dictionaries -/

namespace Dictionary

theorem insertEntry_last {key text : String} {t : Table String String} (h : ∀ e ∈ t, e.1 < key) :
    insertEntry key text t = t ++ [(key, text)] := by
  induction t with
  | nil => rfl
  | cons e rest ih =>
    obtain ⟨he, hrest⟩ := List.forall_mem_cons.1 h
    rw [insertEntry, if_neg (String.lt_asymm he), if_neg (String.ne_of_lt he).symm, ih hrest, List.cons_append]

theorem foldl_insert (more : List (String × String)) :
    ∀ d : Dictionary, (d.entries ++ more).Pairwise (·.1 < ·.1) →
      (more.foldl (fun d e => d.insert e.1 e.2) d).entries = d.entries ++ more := by
  induction more with
  | nil =>
    intro d _
    exact (List.append_nil _).symm
  | cons e rest ih =>
    intro d h
    have hlast : (d.insert e.1 e.2).entries = d.entries ++ [e] :=
      insertEntry_last fun d' hd' => (List.pairwise_append.1 h).2.2 d' hd' e List.mem_cons_self
    have hrest := ih (d.insert e.1 e.2)
    rw [hlast, List.append_assoc, List.singleton_append] at hrest
    exact hrest h

theorem ext_entries {d d' : Dictionary} (h : d.entries = d'.entries) : d = d' := by
  cases d
  cases d'
  simpa using h

/-- Texts in ascending order of their keys are made into the dictionary that they are from. -/
theorem ofList_entries (d : Dictionary) : ofList d.entries = d :=
  ext_entries (foldl_insert d.entries empty d.ascending)

end Dictionary

namespace Config

open NoteStencil.Toml

variable {fields entries : List (String × String)} {key other : String}

/-! ### Fields of a document -/

theorem find?_textEntries (entries : List (String × String)) (key : String) :
    (textEntries entries).find? key = (Table.find? entries key).map .text := by
  simp only [textEntries, Table.find?, List.find?_map, Option.map_map]
  rfl

theorem find?_append {α : Type} (t u : Table String α) (key : String) :
    Table.find? (t ++ u) key = (Table.find? t key).or (Table.find? u key) := by
  rw [Table.find?, List.find?_append, Table.find?, Table.find?]
  cases List.find? (fun e => key == e.1) t <;> rfl

/-- A field that may be left out. -/
theorem find?_unless {α : Type} {p : Prop} [Decidable p] (v : α) (other : String) :
    Table.find? (if p then [] else [(key, v)]) other = if other = key ∧ ¬ p then some v else none := by
  by_cases hp : p
  · simp [hp, Table.find?]
  · by_cases hkey : other = key
    · simp [hp, hkey, Table.find?]
    · simp [hp, hkey, Table.find?]

theorem textField?_document (h : other ≠ key) :
    textField? (documentEntries fields key entries) other = some (Table.find? fields other) := by
  have hfind : Table.find? (documentEntries fields key entries) other = (Table.find? fields other).map .text := by
    rw [documentEntries, find?_append, find?_textEntries, find?_unless, if_neg fun hsame => h hsame.1, Option.or_none]
  rw [textField?, hfind]
  cases Table.find? fields other <;> rfl

theorem mapM_textEntries (entries : List (String × String)) : (textEntries entries).mapM textEntry? = some entries := by
  induction entries with
  | nil => rfl
  | cons e rest ih =>
    rw [textEntries] at ih ⊢
    rw [List.map_cons, List.mapM_cons, ih]
    rfl

theorem substitutionsField?_document (d : Dictionary) (h : Table.find? fields substitutionsKey = none) :
    substitutionsField? (documentEntries fields substitutionsKey d.entries) = some d := by
  have hfind : Table.find? (documentEntries fields substitutionsKey d.entries) substitutionsKey =
      if d.entries ≠ [] then some (.table .headed (textEntries d.entries)) else none := by
    rw [documentEntries, find?_append, find?_textEntries, find?_unless, h]
    simp
  rw [substitutionsField?, hfind]
  by_cases hempty : d.entries = []
  · rw [if_neg (not_not_intro hempty)]
    exact congrArg some (Dictionary.ext_entries hempty.symm)
  · rw [if_pos hempty]
    simp only [mapM_textEntries, Option.map_some, Dictionary.ofList_entries]

/-! ### Fields of a configuration -/

/-- A text that is left out when it is the default, and is the default when it is left out. -/
theorem getD_unless (text default : String) : (if text ≠ default then some text else none).getD default = text := by
  by_cases h : text = default
  · rw [if_neg (not_not_intro h), h, Option.getD_none]
  · rw [if_pos h, Option.getD_some]

theorem find?_fields (c : Config) (other : String) :
    Table.find? c.fields other =
      ((if other = templatesDirKey then c.templatesDir else none).or
        (if other = dateFormatKey ∧ c.dateFormat ≠ defaultDateFormat then some c.dateFormat else none)).or
        (if other = timeFormatKey ∧ c.timeFormat ≠ defaultTimeFormat then some c.timeFormat else none) := by
  have hdir : Table.find? (c.templatesDir.toList.map fun dir => (templatesDirKey, dir)) other =
      if other = templatesDirKey then c.templatesDir else none := by
    cases c.templatesDir with
    | none => exact (ite_self none).symm
    | some dir => by_cases hkey : other = templatesDirKey <;> simp [hkey, Table.find?]
  rw [fields, find?_append, find?_append, hdir, find?_unless, find?_unless]

theorem find?_templatesDir (c : Config) : Table.find? c.fields templatesDirKey = c.templatesDir := by
  simp [find?_fields, templatesDirKey, dateFormatKey, timeFormatKey]

theorem find?_dateFormat (c : Config) : (Table.find? c.fields dateFormatKey).getD defaultDateFormat = c.dateFormat := by
  refine Eq.trans ?_ (getD_unless c.dateFormat defaultDateFormat)
  simp [find?_fields, templatesDirKey, dateFormatKey, timeFormatKey]

theorem find?_timeFormat (c : Config) : (Table.find? c.fields timeFormatKey).getD defaultTimeFormat = c.timeFormat := by
  refine Eq.trans ?_ (getD_unless c.timeFormat defaultTimeFormat)
  simp [find?_fields, templatesDirKey, dateFormatKey, timeFormatKey]

theorem find?_substitutions (c : Config) : Table.find? c.fields substitutionsKey = none := by
  simp [find?_fields, templatesDirKey, dateFormatKey, timeFormatKey, substitutionsKey]

/-- Keys stand in one order, whichever of the fields are left out. -/
theorem keys_document (c : Config) :
    ((documentEntries c.fields substitutionsKey c.substitutions.entries).map (·.1)).Sublist
      [templatesDirKey, dateFormatKey, timeFormatKey, substitutionsKey] := by
  have hdir : (c.templatesDir.toList.map fun _ => templatesDirKey).Sublist [templatesDirKey] := by
    cases c.templatesDir with
    | none => exact List.nil_sublist _
    | some dir => exact List.Sublist.refl _
  have hunless {α : Type} {p : Prop} [Decidable p] (f : α → String) (a : α) :
      ((if p then [] else [a]).map f).Sublist [f a] := by
    split
    · exact List.nil_sublist _
    · exact List.Sublist.refl _
  simp only [documentEntries, textEntries, fields, List.map_append, List.map_map]
  exact ((hdir.append (hunless _ _)).append (hunless _ _)).append (hunless _ _)

/-- What is written has no key twice. -/
theorem document_distinct (c : Config) :
    Table.Distinct (documentEntries c.fields substitutionsKey c.substitutions.entries) := by
  have hkeys : [templatesDirKey, dateFormatKey, timeFormatKey, substitutionsKey].Pairwise fun a b => (b == a) = false := by
    decide
  exact List.pairwise_map.1 (hkeys.sublist c.keys_document)

theorem substitutions_distinct (d : Dictionary) : Table.Distinct (textEntries d.entries) := by
  refine List.pairwise_map.2 (d.ascending.imp ?_)
  intro a b hlt
  exact beq_false_of_ne (String.ne_of_lt hlt).symm

/-! ### Saved and loaded -/

theorem parse?_text (c : Config) : parse? c.text = some { c with vault := none } := by
  have hdocument : Toml.parse? c.text = some (documentEntries c.fields substitutionsKey c.substitutions.entries) :=
    parse?_writeDocument c.document_distinct (substitutions_distinct c.substitutions)
  have htemplates : templatesDirKey ≠ substitutionsKey := by decide
  have hdate : dateFormatKey ≠ substitutionsKey := by decide
  have htime : timeFormatKey ≠ substitutionsKey := by decide
  rw [parse?, hdocument, Option.bind_some, ofEntries?, textField?_document htemplates, textField?_document hdate,
    textField?_document htime, substitutionsField?_document _ c.find?_substitutions]
  simp only [find?_templatesDir, find?_dateFormat, find?_timeFormat]

theorem load_of_read {fs : FileSystem} {p : Path} {c : Config} (h : fs.read p = .ok (encodeUtf8 c.text)) :
    load fs p = .ok { c with vault := none } := by
  simp only [load, FileSystem.textAt, FileSystem.readText, h, decodeUtf8_encodeUtf8, parse?_text]

/-- Nothing but the file system can be in the way of a configuration that is saved. -/
theorem save_ok_iff (c : Config) (fs : FileSystem) (p : Path) :
    (∃ fs', c.save fs p = (.ok (), fs')) ↔ (fs.destination? p).isSome = true := by
  unfold save
  cases hparent : fs.ensureParent p with
  | mk result made =>
    cases result with
    | error failure => simp [FileSystem.destination?, hparent]
    | ok =>
      rw [FileSystem.destination?_eq hparent]
      exact storeText_ok_iff c.text

theorem read_of_save {c : Config} {fs fs' : FileSystem} {p : Path} (h : c.save fs p = (.ok (), fs')) :
    fs'.read p = .ok (encodeUtf8 c.text) := by
  unfold save at h
  split at h
  · cases h
  · exact FileSystem.read_storeText h

theorem vault_again (c : Config) : c.vault.elim { c with vault := none } (withVault { c with vault := none }) = c := by
  obtain ⟨templatesDir, date, time, substitutions, vault⟩ := c
  cases vault with
  | none => rfl
  | some root => rfl

/-- A configuration can be saved wherever a file can be made, and it is loaded as it was: what is loaded has its settings and no
vault, and with its vault set again it is the configuration that was saved, with the same directory of templates. -/
theorem saved_returns (c : Config) (fs : FileSystem) (p : Path) :
    ((∃ fs', c.save fs p = (.ok (), fs')) ↔ (fs.destination? p).isSome = true) ∧
    ∀ fs', c.save fs p = (.ok (), fs') →
      ∃ read, load fs' p = .ok read ∧ read.vault = none ∧ read.settings = c.settings ∧
        c.vault.elim read read.withVault = c ∧
        ∀ e, (c.vault.elim read read.withVault).templatesPath e = c.templatesPath e := by
  refine ⟨c.save_ok_iff fs p, ?_⟩
  intro fs' hsave
  refine ⟨_, load_of_read (read_of_save hsave), rfl, rfl, c.vault_again, ?_⟩
  intro e
  rw [c.vault_again]

/-- Texts that look as if they were missing, keys that need quotes and a value that no plain quotes can hold all come back. -/
theorem saved_returns_odd :
    let c : Config :=
      { templatesDir := some "", dateFormat := "", timeFormat := "%H:%M"
        substitutions := .ofList [("", ""), ("a.b", "it's \"\"\"\n\\"), ("templates_dir", "'''\x07")], vault := some ⟨"/v"⟩ }
    ∃ fs' read, c.save {} ⟨"/n/config.toml"⟩ = (.ok (), fs') ∧ load fs' ⟨"/n/config.toml"⟩ = .ok read ∧
      read.withVault ⟨"/v"⟩ = c := by
  intro c
  obtain ⟨hsaves, hloads⟩ := saved_returns c {} ⟨"/n/config.toml"⟩
  obtain ⟨fs', hsave⟩ := hsaves.2 (by decide +kernel)
  obtain ⟨read, hload, -, -, hsame, -⟩ := hloads fs' hsave
  exact ⟨fs', read, hsave, hload, hsame⟩

end Config
end NoteStencil
