import NoteStencil.Command.Run
import NoteStencil.Proofs.Descent

/-! Listing and resolving. The list holds the markdown files below the templates directory in order, and what it shows is
what a reference means: the directory's own path for a reference comes first, so a template's path in the list leads to the
template. -/

namespace NoteStencil
namespace Template

open NoteStencil.Path FileSystem

variable {fs : FileSystem} {dir p t : Path} {trail : List Place} {names : List String} {place : Place} {reference : String}

/-! ### Order -/

theorem namesLe_iff {as bs : List String} : namesLe as bs = true ↔ ¬bs < as := by
  induction as generalizing bs with
  | nil => simp [namesLe]
  | cons a as ih =>
    cases bs with
    | nil => simp [namesLe]
    | cons b bs =>
      rw [namesLe, List.cons_lt_cons_iff]
      by_cases hab : a = b
      · rw [if_pos hab, ih]
        constructor
        · rintro hnot (hlt | ⟨-, hlt⟩)
          · exact String.lt_irrefl b (hab ▸ hlt)
          · exact hnot hlt
        · exact fun hnot hlt => hnot (.inr ⟨hab.symm, hlt⟩)
      · rw [if_neg hab, decide_eq_true_eq]
        constructor
        · rintro hlt (hgt | ⟨heq, -⟩)
          · exact String.lt_asymm hlt hgt
          · exact hab heq.symm
        · intro hnot
          have hle := String.not_lt.1 fun hgt => hnot (.inl hgt)
          exact String.not_le.1 fun hge => hab (String.le_antisymm hle hge)

theorem namesLe_trans (as bs cs : List String) (h : namesLe as bs = true) (h' : namesLe bs cs = true) :
    namesLe as cs = true :=
  namesLe_iff.2 (List.not_lt.2 (List.le_trans (List.not_lt.1 (namesLe_iff.1 h)) (List.not_lt.1 (namesLe_iff.1 h'))))

theorem namesLe_total (as bs : List String) : (namesLe as bs || namesLe bs as) = true := by
  rw [Bool.or_eq_true, namesLe_iff, namesLe_iff]
  exact (List.le_total as bs).imp List.not_lt.2 List.not_lt.2

theorem lt_of_namesLe {as bs : List String} (h : namesLe as bs = true) (hne : as ≠ bs) : as < bs :=
  List.not_le.1 fun hge => hne (List.le_antisymm (List.not_lt.1 (namesLe_iff.1 h)) hge)

/-! ### What is listed -/

/-- A template below a directory: a file that some names lead to, links followed, with a markdown extension. -/
inductive Listed (fs : FileSystem) (dir : Path) : Path → Prop
  | file {trail : List Place} {names : List String} {place : Place} {octets : List UInt8} {extension : String}
      (way : Reached fs dir trail names place) (content : fs.node? place = some (.file octets))
      (extended : (ofNames names).extension = some extension) (markdown : asciiLower extension ∈ ["md", "markdown"]) :
      Listed fs dir (ofNames names)

theorem isMarkdown_iff : p.isMarkdown = true ↔ ∃ e, p.extension = some e ∧ asciiLower e ∈ ["md", "markdown"] := by
  unfold isMarkdown
  cases p.extension <;> simp

/-- A way to a file goes below the directory that it starts from. -/
theorem ne_nil_of_file {octets : List UInt8} (hdir : fs.isDirectory dir = true) (hway : Reached fs dir trail names place)
    (hfile : fs.node? place = some (.file octets)) : names ≠ [] := by
  rintro rfl
  obtain ⟨root, hroot, hdirectory⟩ := isDirectory_iff.1 hdir
  obtain rfl : root = place := Option.some.inj (hroot.symm.trans hway.place?)
  rw [hdirectory] at hfile
  cases hfile

/-- The last name is the same below the directory and relative to it. -/
theorem isMarkdown_joinAll (hdir : dir.isEmpty = false) (h : ∀ name ∈ names, Named name) (hne : names ≠ []) :
    (dir.joinAll names).isMarkdown = (ofNames names).isMarkdown := by
  obtain ⟨front, name, rfl⟩ := (List.eq_nil_or_concat names).resolve_left hne
  rw [List.concat_eq_append] at h ⊢
  have hfront : ∀ other ∈ front, Named other := fun other hother => h other (List.mem_append_left _ hother)
  have hname : Named name := h name (by simp)
  unfold isMarkdown extension
  rw [joinAll_concat, fileName_join (isEmpty_joinAll hdir hfront) hname, fileName_ofNames hfront hname]

/-- What is kept of a walk are ways to files, each below the directory. -/
theorem way_of_markdownBelow (hproper : fs.Proper) (hdir : fs.isDirectory dir = true) (h : names ∈ fs.markdownBelow dir) :
    ∃ trail place octets, Reached fs dir trail names place ∧ fs.node? place = some (.file octets) ∧ names ≠ [] := by
  obtain ⟨⟨trail, place, hway⟩, hfile, -⟩ := (mem_markdownBelow hproper).1 h
  obtain ⟨other, octets, hother, hnode⟩ := isFile_iff.1 hfile
  obtain rfl : other = place := Option.some.inj (hother.symm.trans hway.place?)
  exact ⟨trail, other, octets, hway, hnode, ne_nil_of_file hdir hway hnode⟩

theorem mem_list_iff (hproper : fs.Proper) (hdir : fs.isDirectory dir = true) : t ∈ list fs dir ↔ Listed fs dir t := by
  obtain ⟨root, hroot, -⟩ := isDirectory_iff.1 hdir
  have hempty := ne_empty_of_place? hroot
  unfold list
  constructor
  · intro h
    obtain ⟨names, hmem, rfl⟩ := List.mem_map.1 h
    have hbelow := List.mem_mergeSort.1 hmem
    obtain ⟨trail, place, octets, hway, hnode, hne⟩ := way_of_markdownBelow hproper hdir hbelow
    obtain ⟨-, -, hmarkdown⟩ := (mem_markdownBelow hproper).1 hbelow
    rw [isMarkdown_joinAll hempty hway.named hne] at hmarkdown
    obtain ⟨e, hextension, hlower⟩ := isMarkdown_iff.1 hmarkdown
    exact .file hway hnode hextension hlower
  · rintro ⟨hway, hnode, hextension, hlower⟩
    refine List.mem_map.2 ⟨_, List.mem_mergeSort.2 ((mem_markdownBelow hproper).2 ⟨⟨_, _, hway⟩, ?_, ?_⟩), rfl⟩
    · exact isFile_iff.2 ⟨_, _, hway.place?, hnode⟩
    · rw [isMarkdown_joinAll hempty hway.named (ne_nil_of_file hdir hway hnode)]
      exact isMarkdown_iff.2 ⟨_, hextension, hlower⟩

theorem steps_of_markdownBelow (hproper : fs.Proper) (h : names ∈ fs.markdownBelow dir) : steps (ofNames names) = names := by
  obtain ⟨⟨trail, place, hway⟩, -, -⟩ := (mem_markdownBelow hproper).1 h
  by_cases hne : names = []
  · rw [hne]
    decide
  · exact steps_ofNames hway.named hne

/-- The list is in strict order, name by name. -/
theorem list_pairwise (hproper : fs.Proper) (dir : Path) : (list fs dir).Pairwise fun t u => steps t < steps u := by
  have hnodup : ((fs.markdownBelow dir).mergeSort namesLe).Nodup :=
    (List.mergeSort_perm _ _).nodup_iff.2 (markdownBelow_nodup hproper dir)
  have hsteps : ∀ names ∈ (fs.markdownBelow dir).mergeSort namesLe, steps (ofNames names) = names := by
    intro names hmem
    exact steps_of_markdownBelow hproper (List.mem_mergeSort.1 hmem)
  refine List.pairwise_map.2 ?_
  refine List.Pairwise.imp_of_mem ?_ ((List.pairwise_mergeSort namesLe_trans namesLe_total _).and hnodup)
  rintro as bs has hbs ⟨hle, hne⟩
  rw [hsteps as has, hsteps bs hbs]
  exact lt_of_namesLe hle hne

/-- A template as listed, joined to the directory, is a file. -/
theorem Listed.isFile (hdir : fs.isDirectory dir = true) (h : Listed fs dir t) : fs.isFile (dir.join t) = true := by
  obtain ⟨root, hroot, -⟩ := isDirectory_iff.1 hdir
  obtain ⟨hway, hnode, -, -⟩ := h
  rw [join_ofNames (ne_empty_of_place? hroot) hway.named (ne_nil_of_file hdir hway hnode)]
  exact isFile_iff.2 ⟨_, _, hway.place?, hnode⟩

/-! ### What a reference means -/

/-- The path with `.md` behind it, unless it ends so. -/
def dotted (p : Path) : List Path := if ".md".toList <:+ p.chars then [] else [⟨p.text ++ ".md"⟩]

/-- What a reference may mean, in order: a path in the directory, this with `.md`, a path of its own, this with `.md`. -/
def meanings (dir : Path) (reference : String) : List Path :=
  [dir.join ⟨reference⟩] ++ dotted (dir.join ⟨reference⟩) ++ [⟨reference⟩] ++ dotted ⟨reference⟩

/-- The first of some paths that is a file. -/
def FirstFile (fs : FileSystem) (paths : List Path) (p : Path) : Prop :=
  ∃ before after, paths = before ++ p :: after ∧ fs.isFile p = true ∧ ∀ q ∈ before, fs.isFile q = false

theorem spellings_eq (p : Path) : spellings p = p :: dotted p := by
  unfold spellings dotted hasSuffix suffix
  simp only [List.isSuffixOf_iff_suffix]
  split
  · rfl
  · rfl

theorem candidates_eq (dir : Path) (reference : String) : candidates dir reference = meanings dir reference := by
  simp only [candidates, meanings, spellings_eq, List.cons_append, List.nil_append, List.append_assoc]

theorem resolve_eq_ok_iff : resolve fs (some dir) reference = .ok p ↔ FirstFile fs (meanings dir reference) p := by
  have hfind : (meanings dir reference).find? fs.isFile = some p ↔ FirstFile fs (meanings dir reference) p := by
    rw [List.find?_eq_some_iff_append]
    constructor
    · rintro ⟨hfile, before, after, hpaths, hbefore⟩
      exact ⟨before, after, hpaths, hfile, fun q hq => by simpa using hbefore q hq⟩
    · rintro ⟨before, after, hpaths, hfile, hbefore⟩
      exact ⟨hfile, before, after, hpaths, fun q hq => by simpa using hbefore q hq⟩
  unfold resolve
  simp only [← hfind, candidates_eq]
  cases (meanings dir reference).find? fs.isFile <;> simp

theorem resolve_eq_error_iff {failure : Failure} : resolve fs (some dir) reference = .error failure ↔
    failure = .templateNotFound reference dir (suggestions fs dir reference) ∧
      ∀ q ∈ meanings dir reference, fs.isFile q = false := by
  have hfind : (meanings dir reference).find? fs.isFile = none ↔ ∀ q ∈ meanings dir reference, fs.isFile q = false := by
    simp
  unfold resolve
  simp only [← hfind, candidates_eq]
  cases (meanings dir reference).find? fs.isFile <;> simp [eq_comm]

/-- What is a file in the directory is what its path there means. -/
theorem resolve_of_isFile (h : fs.isFile (dir.join ⟨reference⟩) = true) :
    resolve fs (some dir) reference = .ok (dir.join ⟨reference⟩) :=
  resolve_eq_ok_iff.2 ⟨[], _, rfl, h, nofun⟩

/-! ### What is shown -/

theorem foldl_say_out (lines : List Path) (text : Path → String) (w : Command.Terminal) :
    (lines.foldl (fun w t => Command.say (text t) w) w).prompt.out = w.prompt.out ++ closeLines (lines.map text) := by
  induction lines generalizing w with
  | nil => simp [closeLines]
  | cons t rest ih =>
    rw [List.foldl_cons, ih, List.map_cons]
    simp [Command.say, Console.print, closeLines, String.append_assoc]

theorem runList_out {work : Command.Workplace} {w : Command.Terminal} (paths : Bool)
    (hdir : work.templatesDir = some dir) (hsome : list w.files dir ≠ []) :
    (Command.runList work paths w).2.prompt.out =
      w.prompt.out ++ closeLines ((list w.files dir).map (Command.listed paths dir)) := by
  unfold Command.runList
  simp only [hdir]
  split
  · next hnone => exact absurd hnone hsome
  · rw [foldl_say_out]
    rfl

/-- Listing and resolving agree: the list is in strict order and holds the templates below the directory, each resolves to
its path in the directory, and this is what is shown of it. A reference means the first file among its meanings, and
nothing when none is a file. -/
theorem list_resolves (hproper : fs.Proper) (hdir : fs.isDirectory dir = true) :
    (list fs dir).Pairwise (fun t u => steps t < steps u) ∧ (∀ t, t ∈ list fs dir ↔ Listed fs dir t) ∧
      (∀ t ∈ list fs dir, resolve fs (some dir) t.text = .ok (dir.join t)) ∧
      (∀ (work : Command.Workplace) (w : Command.Terminal),
        w.files = fs → work.templatesDir = some dir → list fs dir ≠ [] →
          (Command.runList work true w).2.prompt.out =
            w.prompt.out ++ closeLines ((list fs dir).map fun t => (dir.join t).text)) ∧
      (∀ reference p, resolve fs (some dir) reference = .ok p ↔ FirstFile fs (meanings dir reference) p) ∧
      ∀ reference, (∃ names, resolve fs (some dir) reference = .error (.templateNotFound reference dir names)) ↔
        ∀ p ∈ meanings dir reference, fs.isFile p = false := by
  refine ⟨list_pairwise hproper dir, fun t => mem_list_iff hproper hdir, fun t ht => ?_,
    fun work w hfiles hwork hsome => ?_, fun reference p => resolve_eq_ok_iff, fun reference => ?_⟩
  · exact resolve_of_isFile (((mem_list_iff hproper hdir).1 ht).isFile hdir)
  · subst hfiles
    exact runList_out true hwork hsome
  · constructor
    · rintro ⟨names, hresolve⟩
      exact (resolve_eq_error_iff.1 hresolve).2
    · exact fun hnone => ⟨_, resolve_eq_error_iff.2 ⟨rfl, hnone⟩⟩

/-- A vault with a link back up, a link to a template and a suffix in capitals. -/
def sampleVault : FileSystem where
  entries :=
    [(["v"], .directory), (["v", "b.MD"], .file []), (["v", "a"], .directory), (["v", "a", "c.markdown"], .file []),
      (["v", "a", "up"], .link ⟨".."⟩), (["v", "l.md"], .link ⟨"a/c.markdown"⟩), (["v", "l.txt"], .file [])]

theorem list_resolves_vault :
    list sampleVault ⟨"/v"⟩ = [⟨"a/c.markdown"⟩, ⟨"b.MD"⟩, ⟨"l.md"⟩] ∧
      resolve sampleVault (some ⟨"/v"⟩) "a/c.markdown" = .ok ⟨"/v/a/c.markdown"⟩ ∧
      resolve sampleVault (some ⟨"/v"⟩) "l" = .ok ⟨"/v/l.md"⟩ := by
  have hbelow : sampleVault.markdownBelow ⟨"/v"⟩ = [["b.MD"], ["a", "c.markdown"], ["l.md"]] := by decide +kernel
  have hlist : list sampleVault ⟨"/v"⟩ = [⟨"a/c.markdown"⟩, ⟨"b.MD"⟩, ⟨"l.md"⟩] := by
    have hsorted : [["b.MD"], ["a", "c.markdown"], ["l.md"]].mergeSort namesLe =
        [["a", "c.markdown"], ["b.MD"], ["l.md"]] := by
      have hback : namesLe ["b.MD"] ["a", "c.markdown"] = false := by decide
      have hfirst : namesLe ["a", "c.markdown"] ["l.md"] = true := by decide
      have hlast : namesLe ["b.MD"] ["l.md"] = true := by decide
      simp [List.mergeSort, hback, hfirst, hlast]
    rw [list, hbelow, hsorted]
    decide +kernel
  have hagree := @list_resolves sampleVault ⟨"/v"⟩ (by decide +kernel) (by decide +kernel)
  obtain ⟨-, -, hresolves, -, hfirst, -⟩ := hagree
  refine ⟨hlist, ?_, (hfirst "l" ⟨"/v/l.md"⟩).2 ⟨[⟨"/v/l"⟩], [⟨"l"⟩, ⟨"l.md"⟩], ?_, ?_, ?_⟩⟩
  · have hmem : (⟨"a/c.markdown"⟩ : Path) ∈ list sampleVault ⟨"/v"⟩ := by simp [hlist]
    exact hresolves _ hmem
  · decide +kernel
  · decide +kernel
  · decide +kernel

end Template
end NoteStencil
