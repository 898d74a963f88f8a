import Blueprint.Proofs.Batch.Prepared
import Blueprint.Proofs.FileTree
import Blueprint.Proofs.Structure.Container
import Mathlib.Data.List.Nodup

/-!
# Loading templates

Templates are loaded exactly if nothing is wrong with them: the directory above them can be
listed, and so can the directories of the kinds that are there; every template file in these is
read and is a template; and no two files of a kind have the same name. `TemplateFault` lists
what can be wrong, each with the error that says so. If templates are not loaded, the error is
among these (`TemplateLibrary.fault_of_error`), and if one of these is there, they are not loaded
(`TemplateLibrary.not_fault_of_ok`).
-/

namespace Blueprint

open FileTree

/-! ## Template files -/

/-- The directory of the templates of a kind. -/
def TemplateKind.directoryIn (kind : TemplateKind) (root : Path) : Path := root.entry kind.directory

/-- The name of the template in a file of a directory. -/
def Path.templateName (directory : Path) (name : String) : String :=
  (directory.entry name).stem?.getD ""

/-- The name is that of a template file in the directory. -/
structure FileTree.HasTemplate (t : FileTree) (directory : Path) (name : String) : Prop where
  /-- the name is listed there -/
  listed : ∃ names, t.readDir directory = .ok names ∧ name ∈ names
  /-- it has an extension of templates -/
  extension : ∃ e ∈ templateExtensions, (directory.entry name).extension? = some e
  /-- and it is a file -/
  file : ∃ content, t.find? (directory.entry name) = some (.file content)

/-- There is something at the path of a directory with templates. -/
theorem FileTree.HasTemplate.isSome_find? {t : FileTree} {directory : Path} {name : String}
    (h : t.HasTemplate directory name) : (t.find? directory).isSome := by
  obtain ⟨names, hnames, -⟩ := h.listed
  obtain ⟨location, hlocation, -⟩ := Outcome.bind_eq_ok.1 hnames
  rw [find?_of_locateDir hlocation]
  rfl

/-- What can be wrong with templates. -/
inductive TemplateFault (t : FileTree) (root : Path) : RunError → Prop where
  /-- the directory above them cannot be listed -/
  | root {e : FileError} (failed : t.readDir root = .error e) :
    TemplateFault t root (.template root (.file e))
  /-- something is there for a kind, but cannot be listed -/
  | directory {kind : TemplateKind} {e : FileError}
      (there : (t.find? (kind.directoryIn root)).isSome)
      (failed : t.readDir (kind.directoryIn root) = .error e) :
    TemplateFault t root (.template (kind.directoryIn root) (.file e))
  /-- a template file cannot be read -/
  | file {kind : TemplateKind} {name : String} {e : FileError}
      (template : t.HasTemplate (kind.directoryIn root) name)
      (failed : t.readFile ((kind.directoryIn root).entry name) = .error e) :
    TemplateFault t root (.template ((kind.directoryIn root).entry name) (.file e))
  /-- a template file is no template -/
  | content {kind : TemplateKind} {name : String} {bytes : List UInt8} {e : TemplateError}
      (template : t.HasTemplate (kind.directoryIn root) name)
      (read : t.readFile ((kind.directoryIn root).entry name) = .ok bytes)
      (malformed : Template.payload bytes = .error e) :
    TemplateFault t root (.template ((kind.directoryIn root).entry name) (.content e))
  /-- two template files of a kind have one name -/
  | duplicate {kind : TemplateKind} {name name' : String}
      (template : t.HasTemplate (kind.directoryIn root) name)
      (template' : t.HasTemplate (kind.directoryIn root) name') (ne : name ≠ name')
      (same : (kind.directoryIn root).templateName name =
        (kind.directoryIn root).templateName name') :
    TemplateFault t root (.template ((kind.directoryIn root).entry name')
      (.duplicate kind ((kind.directoryIn root).templateName name')))

/-- The names in a directory are all different. -/
theorem FileTree.nodup_of_readDir {t : FileTree} {p : Path} {names : List String}
    (h : t.readDir p = .ok names) : names.Nodup := by
  obtain ⟨location, -, hnames⟩ := Outcome.bind_eq_ok.1 h
  obtain rfl := Except.ok.inj hnames
  apply (pairwise_below t location).filterMap
  rintro ⟨l, e⟩ ⟨l', e'⟩ hne name ha name' hb heq
  apply hne
  dsimp only at ha hb ⊢
  split at ha
  next n =>
    split at hb
    next n' => rw [Option.some.inj ha, Option.some.inj hb, heq]
    next => cases hb
  next => cases ha

namespace TemplateLibrary

variable {t : FileTree} {root directory : Path} {kind : TemplateKind} {l l' : TemplateLibrary}

/-- The names of the template files among the names in a directory, in order. -/
def templatesAmong (t : FileTree) (directory : Path) (names : List String) : List String :=
  ((names.mergeSort fun a b => a ≤ b).filter fun n =>
    (directory.entry n).extension?.any fun e => templateExtensions.contains e).filter fun n =>
      t.find? (directory.entry n) matches some (.file _)

/-- What is listed among the templates is one. -/
theorem hasTemplate_of_mem {names : List String} (hnames : t.readDir directory = .ok names)
    {name : String} (h : name ∈ templatesAmong t directory names) :
    t.HasTemplate directory name := by
  simp only [templatesAmong, List.mem_filter, List.mem_mergeSort, Option.any_eq_true,
    List.contains_iff_mem] at h
  obtain ⟨⟨hmem, e, hextension, he⟩, hfile⟩ := h
  refine ⟨⟨names, hnames, hmem⟩, ⟨e, he, hextension⟩, ?_⟩
  split at hfile
  next content hcontent => exact ⟨content, hcontent⟩
  next => cases hfile

/-- And every template is listed. -/
theorem mem_of_hasTemplate {names : List String} (hnames : t.readDir directory = .ok names)
    {name : String} (h : t.HasTemplate directory name) :
    name ∈ templatesAmong t directory names := by
  obtain ⟨names', hnames', hmem⟩ := h.listed
  obtain rfl := Except.ok.inj (hnames.symm.trans hnames')
  obtain ⟨e, he, hextension⟩ := h.extension
  obtain ⟨content, hcontent⟩ := h.file
  simp only [templatesAmong, List.mem_filter, List.mem_mergeSort, Option.any_eq_true,
    List.contains_iff_mem]
  exact ⟨⟨hmem, e, hextension, he⟩, by rw [hcontent]⟩

/-- No template is listed twice. -/
theorem nodup_templatesAmong {names : List String} (hnames : t.readDir directory = .ok names) :
    (templatesAmong t directory names).Nodup :=
  (((List.mergeSort_perm names _).nodup_iff.2 (nodup_of_readDir hnames)).filter _).filter _

/-! ## Loading step by step -/

/-- To say where something failed changes no value. -/
theorem outcome_atPath {α : Type} {p : Path} {action : StateM FileTree (Except FileError α)} :
    outcome (atPath p action) t =
      (action t).1.mapError fun e => .template p (.file e) := by
  rw [outcome, atPath, ExceptT.run_mk, bind_apply]
  rcases (action t).1 with e | a <;> rfl

/-- The templates in a directory are listed if the directory can be. -/
theorem outcome_filesIn (directory : Path) :
    outcome (filesIn directory) t =
      match t.readDir directory with
      | .ok names => .ok ((templatesAmong t directory names).map directory.entry)
      | .error e => .error (.template directory (.file e)) := by
  have htest (p : Path) : (liftM (Disk.isFile p : StateM FileTree Bool) :
      ExceptT RunError (StateM FileTree) Bool).run t =
        (.ok (t.find? p matches some (.file _)), t) := rfl
  rw [filesIn, outcome_bind (reads_atPath fun _ => rfl), outcome_atPath, readDir_apply]
  rcases t.readDir directory with e | names
  · rfl
  · refine (outcome_filterM htest _).trans ?_
    simp only [templatesAmong, List.filter_map, Function.comp_def]

/-- A template file is loaded if its name is new, it can be read and it holds one. -/
theorem outcome_loadFile (kind : TemplateKind) (l : TemplateLibrary) (p : Path) :
    outcome (loadFile Batch.silent kind l p) t =
      if (l.get? kind (p.stem?.getD "")).isSome then
        .error (.template p (.duplicate kind (p.stem?.getD "")))
      else
        match t.readFile p with
        | .error e => .error (.template p (.file e))
        | .ok bytes =>
          match Template.payload bytes with
          | .error e => .error (.template p (.content e))
          | .ok payload => .ok (l.insert kind (p.stem?.getD "") payload) := by
  dsimp only [loadFile]
  split
  · rfl
  · rw [outcome_bind (reads_atPath fun _ => rfl), outcome_atPath, readFile_apply]
    rcases t.readFile p with e | bytes
    · rfl
    · dsimp only [Except.mapError, bind, Except.bind]
      rcases Template.payload bytes with e | payload <;> rfl

/-- Adds the template files with these names. -/
def addFiles (t : FileTree) (kind : TemplateKind) (directory : Path) (names : List String)
    (l : TemplateLibrary) : Except RunError TemplateLibrary :=
  names.foldlM (fun l n => outcome (loadFile Batch.silent kind l (directory.entry n)) t) l

/-- Templates of a kind are loaded from a directory, if there is one. -/
theorem outcome_loadKind (root : Path) (l : TemplateLibrary) (kind : TemplateKind) :
    outcome (loadKind Batch.silent root l kind) t =
      if (t.find? (kind.directoryIn root)).isSome then
        match t.readDir (kind.directoryIn root) with
        | .error e => .error (.template (kind.directoryIn root) (.file e))
        | .ok names => addFiles t kind (kind.directoryIn root)
            (templatesAmong t (kind.directoryIn root) names) l
      else .ok l := by
  dsimp only [loadKind]
  rw [outcome_bind (Reads.lift fun _ => rfl), outcome_lift, pathExists_apply]
  change outcome (if (t.find? (kind.directoryIn root)).isSome then
    filesIn (kind.directoryIn root) >>= fun files => files.foldlM (loadFile Batch.silent kind) l
    else pure l) t = _
  split
  · rw [outcome_bind (reads_filesIn _), outcome_filesIn]
    rcases t.readDir (kind.directoryIn root) with e | names
    · rfl
    · refine (outcome_foldlM (reads_loadFile kind) _ l).trans ?_
      rw [List.foldlM_map]
      rfl
  · rfl

/-! ## The files of a kind -/

/-- A template of the kind is found by its name. -/
theorem get?_insert_same (l : TemplateLibrary) (kind : TemplateKind) (name name' : String)
    (payload : Nbt.Compound) :
    (l.insert kind name payload).get? kind name' =
      if name' = name then some payload else l.get? kind name' := by
  cases kind <;> exact SortedMap.get?_insert_of_lawful ..

/-- Templates of the other kind stay as they were. -/
theorem get?_insert_other {kind kind' : TemplateKind} (h : kind' ≠ kind) (l : TemplateLibrary)
    (name name' : String) (payload : Nbt.Compound) :
    (l.insert kind name payload).get? kind' name' = l.get? kind' name' := by
  cases kind <;> cases kind' <;> first | rfl | exact absurd rfl h

/-- What is true of a template file that has been added. -/
theorem added_of_loadFile {p : Path} (h : outcome (loadFile Batch.silent kind l p) t = .ok l') :
    l.get? kind (p.stem?.getD "") = none ∧ ∃ bytes payload, t.readFile p = .ok bytes ∧
      Template.payload bytes = .ok payload ∧ l' = l.insert kind (p.stem?.getD "") payload := by
  rw [outcome_loadFile] at h
  split at h
  next => cases h
  next hfree =>
    refine ⟨Option.not_isSome_iff_eq_none.1 hfree, ?_⟩
    split at h
    next => cases h
    next bytes hread =>
      split at h
      next => cases h
      next payload hpayload => exact ⟨bytes, payload, hread, hpayload, (Except.ok.inj h).symm⟩

/-- The library holds for the kind no names but those of these files. -/
def HoldsOnly (l : TemplateLibrary) (kind : TemplateKind) (directory : Path)
    (names : List String) : Prop :=
  ∀ name, (l.get? kind name).isSome → ∃ n ∈ names, directory.templateName n = name

/-- Files are not added because of one of them, or because one has the name of one before. -/
theorem fault_of_addFiles (before : List String) {names : List String}
    (htemplate : ∀ n ∈ before ++ names, t.HasTemplate (kind.directoryIn root) n)
    (hnodup : (before ++ names).Nodup) (hholds : l.HoldsOnly kind (kind.directoryIn root) before) :
    Outcome.FailsWith (TemplateFault t root)
      (addFiles t kind (kind.directoryIn root) names l) := by
  induction names generalizing before l with
  | nil => exact .ok l
  | cons n names ih =>
    -- the induction is over the files that follow, with those before as the names in the library
    have hn : t.HasTemplate (kind.directoryIn root) n := htemplate n (by simp)
    rw [addFiles, List.foldlM_cons]
    refine .bind ?_ fun l' hl' => ?_
    · rw [outcome_loadFile]
      split
      next hthere =>
        -- the name is taken, so a file before has it
        obtain ⟨n', hn', hname⟩ := hholds _ hthere
        refine .error (.duplicate (htemplate n' (List.mem_append_left _ hn')) hn ?_ hname)
        rintro rfl
        exact (List.nodup_append.1 hnodup).2.2 n' hn' n' List.mem_cons_self rfl
      next =>
        split
        next e hread => exact .error (.file hn hread)
        next bytes hread =>
          split
          next e hpayload => exact .error (.content hn hread hpayload)
          next => exact .ok _
    · obtain ⟨-, bytes, payload, -, -, rfl⟩ := added_of_loadFile hl'
      -- the file read joins those before
      have hsplit : before ++ n :: names = (before ++ [n]) ++ names := by simp
      rw [hsplit] at htemplate hnodup
      apply ih (before ++ [n]) htemplate hnodup
      intro name hname
      rw [get?_insert_same] at hname
      split at hname
      next heq => exact ⟨n, by simp, heq.symm⟩
      next =>
        obtain ⟨n', hn', hname'⟩ := hholds name hname
        exact ⟨n', List.mem_append_left _ hn', hname'⟩

/-- What is true of template files that have been added. -/
theorem added_of_addFiles {names : List String} (h : addFiles t kind directory names l = .ok l') :
    (∀ n ∈ names, l.get? kind (directory.templateName n) = none ∧
      ∃ bytes payload, t.readFile (directory.entry n) = .ok bytes ∧
        Template.payload bytes = .ok payload) ∧
    (names.map directory.templateName).Nodup ∧
    ∀ kind' ≠ kind, l'.get? kind' = l.get? kind' := by
  induction names generalizing l with
  | nil =>
    obtain rfl := Except.ok.inj h
    exact ⟨fun n hn => absurd hn List.not_mem_nil, List.nodup_nil, fun _ _ => rfl⟩
  | cons n names ih =>
    rw [addFiles, List.foldlM_cons] at h
    obtain ⟨l₁, hfirst, hrest⟩ := Outcome.bind_eq_ok.1 h
    obtain ⟨hfree, bytes, payload, hread, hpayload, rfl⟩ := added_of_loadFile hfirst
    obtain ⟨hall, hdistinct, hother⟩ := ih hrest
    -- a later file was not refused, so the library had not its name, and the first has another
    have hlater (n' : String) (hn' : n' ∈ names) :
        directory.templateName n' ≠ directory.templateName n ∧
          l.get? kind (directory.templateName n') = none := by
      have hget := (hall n' hn').1
      rw [get?_insert_same] at hget
      split at hget
      next => cases hget
      next hne => exact ⟨hne, hget⟩
    refine ⟨?_, ?_, ?_⟩
    · rw [List.forall_mem_cons]
      refine ⟨⟨hfree, bytes, payload, hread, hpayload⟩, ?_⟩
      intro n' hn'
      exact ⟨(hlater n' hn').2, (hall n' hn').2⟩
    · rw [List.map_cons, List.nodup_cons]
      refine ⟨?_, hdistinct⟩
      intro hmem
      obtain ⟨n', hn', heq⟩ := List.mem_map.1 hmem
      exact (hlater n' hn').1 heq
    · intro kind' hkind'
      rw [hother kind' hkind']
      exact funext fun name => get?_insert_other hkind' l _ name payload

/-! ## All kinds -/

/-- If the templates of a kind were not yet loaded, they are not loaded only because of a fault. -/
theorem fault_of_loadKind (hfresh : ∀ name, l.get? kind name = none) :
    Outcome.FailsWith (TemplateFault t root) (outcome (loadKind Batch.silent root l kind) t) := by
  rw [outcome_loadKind]
  split
  next hthere =>
    split
    next e hdir => exact .error (.directory hthere hdir)
    next names hdir =>
      apply fault_of_addFiles [] (fun n hn => hasTemplate_of_mem hdir hn)
        (nodup_templatesAmong hdir)
      intro name hname
      rw [hfresh name] at hname
      cases hname
  next => exact .ok l

/-- To load one kind changes no other. -/
theorem get?_of_loadKind (h : outcome (loadKind Batch.silent root l kind) t = .ok l')
    {kind' : TemplateKind} (hne : kind' ≠ kind) : l'.get? kind' = l.get? kind' := by
  rw [outcome_loadKind] at h
  split at h
  next =>
    split at h
    next => cases h
    next => exact (added_of_addFiles h).2.2 kind' hne
  next =>
    obtain rfl := Except.ok.inj h
    rfl

/-- If there is something for a kind that has been loaded, it is a directory, whose template files
have been added. -/
theorem addFiles_of_loadKind (h : outcome (loadKind Batch.silent root l kind) t = .ok l')
    (hthere : (t.find? (kind.directoryIn root)).isSome) :
    ∃ names, t.readDir (kind.directoryIn root) = .ok names ∧
      addFiles t kind (kind.directoryIn root) (templatesAmong t (kind.directoryIn root) names) l =
        .ok l' := by
  rw [outcome_loadKind, if_pos hthere] at h
  split at h
  next => cases h
  next names hdir => exact ⟨names, hdir, h⟩

/-- The template files of a kind that has been loaded are its templates, each under a name of its
own. -/
theorem added_of_loadKind (h : outcome (loadKind Batch.silent root l kind) t = .ok l') :
    (∀ n, t.HasTemplate (kind.directoryIn root) n →
      ∃ bytes payload, t.readFile ((kind.directoryIn root).entry n) = .ok bytes ∧
        Template.payload bytes = .ok payload) ∧
    ∀ n n', t.HasTemplate (kind.directoryIn root) n → t.HasTemplate (kind.directoryIn root) n' →
      (kind.directoryIn root).templateName n = (kind.directoryIn root).templateName n' →
        n = n' := by
  have hadded (n : String) (hn : t.HasTemplate (kind.directoryIn root) n) :=
    addFiles_of_loadKind h hn.isSome_find?
  constructor
  · intro n hn
    obtain ⟨names, hdir, hfiles⟩ := hadded n hn
    exact ((added_of_addFiles hfiles).1 n (mem_of_hasTemplate hdir hn)).2
  · intro n n' hn hn' hsame
    obtain ⟨names, hdir, hfiles⟩ := hadded n hn
    exact List.inj_on_of_nodup_map (added_of_addFiles hfiles).2.1 (mem_of_hasTemplate hdir hn)
      (mem_of_hasTemplate hdir hn') hsame

/-- Kinds that were not yet loaded are not loaded only because of a fault. -/
theorem fault_of_loadKinds {kinds : List TemplateKind} (hnodup : kinds.Nodup)
    (hfresh : ∀ kind ∈ kinds, ∀ name, l.get? kind name = none) :
    Outcome.FailsWith (TemplateFault t root)
      (kinds.foldlM (fun l kind => outcome (loadKind Batch.silent root l kind) t) l) := by
  induction kinds generalizing l with
  | nil => exact .ok l
  | cons kind kinds ih =>
    obtain ⟨hnew, hnodup⟩ := List.nodup_cons.1 hnodup
    rw [List.foldlM_cons]
    apply Outcome.FailsWith.bind (fault_of_loadKind (hfresh kind List.mem_cons_self))
    intro l' hl'
    apply ih hnodup
    intro kind' hkind' name
    rw [get?_of_loadKind hl' (fun heq => hnew (heq ▸ hkind'))]
    exact hfresh kind' (List.mem_cons_of_mem _ hkind') name

/-- Both kinds of templates are loaded from a directory that is there. -/
theorem outcome_load (root : Path) :
    outcome (load Batch.silent root) t =
      match t.readDir root with
      | .error e => .error (.template root (.file e))
      | .ok _ =>
        TemplateKind.all.foldlM (fun l kind => outcome (loadKind Batch.silent root l kind) t)
          empty := by
  rw [load, outcome_bind (reads_atPath fun _ => rfl), outcome_atPath, readDir_apply]
  rcases t.readDir root with e | names
  · rfl
  · exact outcome_foldlM (reads_loadKind root) _ _

/-- **Templates are not loaded only because of a fault**, and the error says which. -/
theorem fault_of_error {e : RunError} (h : outcome (load Batch.silent root) t = .error e) :
    TemplateFault t root e := by
  rw [outcome_load] at h
  split at h
  next e' hroot =>
    obtain rfl := Except.error.inj h
    exact .root hroot
  next =>
    apply fault_of_loadKinds (by decide) _ e h
    intro kind _ name
    cases kind <;> rfl

/-- **If templates are loaded, there is no fault.** -/
theorem not_fault_of_ok (h : outcome (load Batch.silent root) t = .ok l) (e : RunError) :
    ¬ TemplateFault t root e := by
  rw [outcome_load] at h
  split at h
  next => cases h
  next names hroot =>
    have hkind (kind : TemplateKind) :
        ∃ l l', outcome (loadKind Batch.silent root l kind) t = .ok l' :=
      Outcome.exists_of_foldlM_eq_ok h (by cases kind <;> decide)
    -- every case of a fault contradicts what was loaded
    intro hfault
    cases hfault with
    | root failed =>
      exact Outcome.ne_error_of_eq_ok hroot failed
    | @directory kind _ there failed =>
      obtain ⟨l₁, l₂, hloaded⟩ := hkind kind
      obtain ⟨names', hdir, -⟩ := addFiles_of_loadKind hloaded there
      exact Outcome.ne_error_of_eq_ok hdir failed
    | @file kind name _ template failed =>
      obtain ⟨l₁, l₂, hloaded⟩ := hkind kind
      obtain ⟨bytes, payload, hread, -⟩ := (added_of_loadKind hloaded).1 name template
      exact Outcome.ne_error_of_eq_ok hread failed
    | @content kind name _ _ template read malformed =>
      obtain ⟨l₁, l₂, hloaded⟩ := hkind kind
      obtain ⟨bytes, payload, hread, hpayload⟩ := (added_of_loadKind hloaded).1 name template
      obtain rfl := Except.ok.inj (hread.symm.trans read)
      exact Outcome.ne_error_of_eq_ok hpayload malformed
    | @duplicate kind name name' template template' ne same =>
      obtain ⟨l₁, l₂, hloaded⟩ := hkind kind
      exact ne ((added_of_loadKind hloaded).2 name name' template template' same)

/-! ## What is loaded -/

/-- What is read as a template may be put in. -/
theorem Accepted.insert (h : l.Accepted) {bytes : List UInt8} {payload : Nbt.Compound}
    (hpayload : Template.payload bytes = .ok payload) (kind : TemplateKind) (name : String) :
    (l.insert kind name payload).Accepted := by
  intro kind' name' c hc
  by_cases hkind : kind' = kind
  · rw [hkind, get?_insert_same] at hc
    split at hc
    next => exact ⟨bytes, Option.some.inj hc ▸ hpayload⟩
    next => exact h kind name' c hc
  · rw [get?_insert_other hkind] at hc
    exact h kind' name' c hc

/-- All templates of a kind that are loaded are accepted. -/
theorem accepted_of_loadKind (hl : l.Accepted)
    (h : outcome (loadKind Batch.silent root l kind) t = .ok l') : l'.Accepted := by
  rw [outcome_loadKind] at h
  split at h
  next =>
    split at h
    next => cases h
    next =>
      refine Outcome.invariant_of_foldlM_eq_ok (fun l₁ n l₂ hl₁ hfile => ?_) hl h
      obtain ⟨-, bytes, payload, -, hpayload, rfl⟩ := added_of_loadFile hfile
      exact hl₁.insert hpayload _ _
  next => exact Except.ok.inj h ▸ hl

/-- Every template that is loaded was read from a template file. -/
theorem accepted_of_load (h : outcome (load Batch.silent root) t = .ok l) : l.Accepted := by
  rw [outcome_load] at h
  split at h
  next => cases h
  next =>
    have hempty : empty.Accepted := by
      intro kind name c hc
      cases kind <;> cases hc
    exact Outcome.invariant_of_foldlM_eq_ok (fun _ _ _ => accepted_of_loadKind) hempty h

end TemplateLibrary

end Blueprint
