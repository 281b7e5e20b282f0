import DataEngine.Config.Parse
import DataEngine.Lib.Effect
import DataEngine.Rational

/-!
The directories of templates, whose files may be listed in any order.

Every file that is regular or has `.json` somewhere in its name is read. The first one that
cannot be parsed ends the reading, so what is loaded may depend on the order. A template is asked
for its name before it is kept, so it has a member of that name.
-/

namespace DataEngine.ConfigParse

open Json Lib.Effect

variable {R : Type}

/-- What is kept of a type under a name. -/
def entry (m : Map String (Map CfgType (Value R))) (name : String) (type : CfgType) :
    Option (Value R) := m[name]?.bind fun types => types[type]?

lemma entry_setCfg (m : Map String (Map CfgType (Value R))) (name name' : String)
    (type type' : CfgType) (v : Value R) :
    entry (setCfg m name type v) name' type' =
      if name' = name ∧ type' = type then some v else entry m name' type' := by
  unfold entry setCfg
  rw [Map.getElem?_insert]
  by_cases hname : name' = name
  · subst hname
    rw [if_pos rfl, Option.bind_some, Map.getElem?_insert]
    by_cases htype : type' = type
    · simp [htype]
    · cases m[name']? <;> simp [htype]
  · simp [hname]

/-- A regular file whose name ends with `.json`. -/
def File.isTemplate (f : File R) : Bool :=
  f.fType = .reg && decide (".json".toList <:+ f.subName.toList)

lemma File.not_skipped {f : File R} (h : f.isTemplate = true) : f.skipped = false := by
  obtain ⟨hreg, -⟩ := Bool.and_eq_true_iff.mp h
  simp [File.skipped, of_decide_eq_true hreg]

/-- The template in a file that parses, as it is kept. -/
def File.template (f : File R) : Option (Value R) := f.value.map (·.withMember "name")

variable [Double R]

/-- The name a template is kept under. -/
def templateName (cfgTemp : Value R) : Except Fault String := do
  (← cfgTemp.member "name").asString

lemma templateName_withMember (cfgTemp : Value R) :
    templateName (cfgTemp.withMember "name") = templateName cfgTemp := by
  simp only [templateName, Value.member_withMember]

/-! ### One directory -/

/-- What is read of a directory, one template after the other. -/
def templates : List (File R) → Except Fault (List (String × Value R))
  | [] => .ok []
  | f :: fs =>
    if f.skipped then templates fs
    else
      match f.template with
      | none => .ok []
      | some cfgTemp => do
        let name ← templateName cfgTemp
        return (name, cfgTemp) :: (← templates fs)

lemma templates_skipped {f : File R} (h : f.skipped = true) (fs : List (File R)) :
    templates (f :: fs) = templates fs := by
  rw [templates, if_pos h]

lemma templates_unparsed {f : File R} (h : f.skipped = false) (hv : f.template = none)
    (fs : List (File R)) : templates (f :: fs) = .ok [] := by
  rw [templates, if_neg (by simp [h]), hv]

lemma templates_parsed {f : File R} (h : f.skipped = false) {v : Value R} (hv : f.template = some v)
    (fs : List (File R)) :
    templates (f :: fs) = (do
      let name ← templateName v
      return (name, v) :: (← templates fs)) := by
  rw [templates, if_neg (by simp [h]), hv]

/-- A directory adds its templates to the entries of its type. -/
lemma parseTemplateFiles_eq (type : CfgType) (m : Map String (Map CfgType (Value R)))
    (fs : List (File R)) :
    parseTemplateFiles type m fs =
      (fun ts => ts.foldl (fun m t => setCfg m t.1 type t.2) m) <$> templates fs := by
  induction fs generalizing m with
  | nil => rfl
  | cons f fs ih =>
    unfold parseTemplateFiles
    by_cases hskip : f.skipped = true
    · rw [if_pos hskip, ih, templates_skipped hskip]
    rw [if_neg hskip]
    have hread : f.skipped = false := by simpa using hskip
    cases hv : f.value with
    | none =>
      rw [templates_unparsed hread (by rw [File.template, hv, Option.map_none])]
      rfl
    | some v =>
      rw [templates_parsed hread (by rw [File.template, hv, Option.map_some]),
        templateName_withMember]
      have hname : templateName v = (do (← v.member "name").asString) := rfl
      simp only [hname]
      rcases v.member "name" with e | w
      · rfl
      simp only [bind, Except.bind]
      rcases w.asString with e | name
      · rfl
      simp only [ih]
      cases templates fs <;> rfl

omit [Double R] in
/-- The last template of a name is the one that is kept. -/
lemma entry_foldl (type type' : CfgType) (ts : List (String × Value R))
    (m : Map String (Map CfgType (Value R))) (name : String) :
    entry (ts.foldl (fun m t => setCfg m t.1 type t.2) m) name type' =
      if type' = type then (ts.reverse.lookup name).or (entry m name type')
      else entry m name type' := by
  induction ts using List.reverseRecOn with
  | nil => simp
  | append_singleton ts t ih =>
    obtain ⟨name', v⟩ := t
    rw [List.foldl_append, List.foldl_cons, List.foldl_nil, entry_setCfg, ih]
    by_cases htype : type' = type
    · by_cases hname : name = name'
      · simp [htype, hname]
      · simp [htype, hname, List.lookup_cons, beq_false_of_ne hname]
    · simp [htype]

/-- A regular `.json` file that parses carries the template `v` of the name. -/
def Carries (fs : List (File R)) (name : String) (v : Value R) : Prop :=
  ∃ f ∈ fs, f.isTemplate = true ∧ f.template = some v ∧ templateName v = .ok name

/-- What is read of a directory are the templates its regular `.json` files carry. -/
def Complete (fs files : List (File R)) : Prop :=
  ∃ ts, templates files = .ok ts ∧ ∀ name v, ts.reverse.lookup name = some v ↔ Carries fs name v

/-- The files are read without a loss: whatever is read and parses is a template, or a copy of
one; and if there is one, everything that is read parses. -/
structure Lossless (fs : List (File R)) : Prop where
  named : ∀ f ∈ fs, f.skipped = false → ∀ v, f.template = some v → ∃ name, templateName v = .ok name
  template : ∀ f ∈ fs, f.skipped = false → ∀ v, f.template = some v →
    ∃ g ∈ fs, g.isTemplate = true ∧ g.template = some v
  parses : (∃ g ∈ fs, g.isTemplate = true ∧ g.template ≠ none) →
    ∀ f ∈ fs, f.skipped = false → f.template ≠ none

/-- Templates of one name are the same. -/
def Distinct (fs : List (File R)) : Prop :=
  ∀ name v w, Carries fs name v → Carries fs name w → v = w

omit [Double R] in
lemma mem_of_lookup {ts : List (String × Value R)} {name : String} {v : Value R}
    (h : ts.lookup name = some v) : (name, v) ∈ ts := by
  induction ts with
  | nil => simp at h
  | cons t ts ih =>
    obtain ⟨name', w⟩ := t
    rw [List.lookup_cons] at h
    by_cases hname : name = name'
    · subst hname
      obtain rfl : w = v := by simpa using h
      exact List.mem_cons_self
    · rw [beq_false_of_ne hname] at h
      exact List.mem_cons_of_mem _ (ih h)

omit [Double R] in
lemma exists_lookup {ts : List (String × Value R)} {name : String} {v : Value R}
    (h : (name, v) ∈ ts) : ∃ w, ts.lookup name = some w := by
  rw [← Option.isSome_iff_exists, Option.isSome_iff_ne_none, Ne, List.lookup_eq_none_iff]
  exact fun hno => by simpa using hno _ h

lemma mem_templates {fs : List (File R)} {ts : List (String × Value R)}
    (h : templates fs = .ok ts) {name : String} {v : Value R} (ht : (name, v) ∈ ts) :
    ∃ f ∈ fs, f.skipped = false ∧ f.template = some v ∧ templateName v = .ok name := by
  induction fs generalizing ts with
  | nil =>
    obtain rfl := Except.ok.inj h
    simp at ht
  | cons f fs ih =>
    by_cases hskip : f.skipped = true
    · rw [templates_skipped hskip] at h
      obtain ⟨g, hg, hrest⟩ := ih h ht
      exact ⟨g, List.mem_cons_of_mem _ hg, hrest⟩
    have hread : f.skipped = false := by simpa using hskip
    cases hv : f.template with
    | none =>
      rw [templates_unparsed hread hv] at h
      obtain rfl := Except.ok.inj h
      simp at ht
    | some w =>
      rw [templates_parsed hread hv] at h
      obtain ⟨name', hname, h⟩ := bind_eq_ok.mp h
      obtain ⟨ts', hts, h⟩ := bind_eq_ok.mp h
      obtain rfl := Except.ok.inj h
      obtain heq | ht := List.mem_cons.mp ht
      · obtain ⟨rfl, rfl⟩ := Prod.mk.inj heq
        exact ⟨f, List.mem_cons_self, hread, hv, hname⟩
      · obtain ⟨g, hg, hrest⟩ := ih hts ht
        exact ⟨g, List.mem_cons_of_mem _ hg, hrest⟩

/-- Files with names are read, and if all of them parse, so is what follows. -/
lemma exists_templates {fs : List (File R)}
    (h : ∀ f ∈ fs, f.skipped = false → ∀ v, f.template = some v →
      ∃ name, templateName v = .ok name) :
    ∃ ts, templates fs = .ok ts := by
  induction fs with
  | nil => exact ⟨[], rfl⟩
  | cons f fs ih =>
    obtain ⟨hf, hfs⟩ := List.forall_mem_cons.mp h
    obtain ⟨ts, hts⟩ := ih hfs
    by_cases hskip : f.skipped = true
    · exact ⟨ts, by rw [templates_skipped hskip, hts]⟩
    have hread : f.skipped = false := by simpa using hskip
    cases hv : f.template with
    | none => exact ⟨[], templates_unparsed hread hv fs⟩
    | some v =>
      obtain ⟨name, hname⟩ := hf hread v hv
      refine ⟨(name, v) :: ts, ?_⟩
      rw [templates_parsed hread hv, hname, hts]
      rfl

lemma templates_append {fs : List (File R)} (h : ∀ f ∈ fs, f.skipped = false → f.template ≠ none)
    {ts : List (String × Value R)} (hts : templates fs = .ok ts) (gs : List (File R)) :
    templates (fs ++ gs) = (ts ++ ·) <$> templates gs := by
  induction fs generalizing ts with
  | nil =>
    obtain rfl := Except.ok.inj hts
    cases hg : templates gs <;> simp [hg]
  | cons f fs ih =>
    obtain ⟨hf, hfs⟩ := List.forall_mem_cons.mp h
    rw [List.cons_append]
    by_cases hskip : f.skipped = true
    · rw [templates_skipped hskip] at hts ⊢
      exact ih hfs hts
    have hread : f.skipped = false := by simpa using hskip
    obtain ⟨v, hv⟩ := Option.ne_none_iff_exists'.mp (hf hread)
    rw [templates_parsed hread hv] at hts ⊢
    obtain ⟨name, hname, hts⟩ := bind_eq_ok.mp hts
    obtain ⟨ts', hts', hts⟩ := bind_eq_ok.mp hts
    obtain rfl := Except.ok.inj hts
    rw [hname, ih hfs hts']
    cases templates gs <;> rfl

/-- A file that is read and parses adds its template, wherever it stands. -/
lemma mem_templates_of_parses {fs : List (File R)} {ts : List (String × Value R)}
    (h : templates fs = .ok ts) (hparses : ∀ f ∈ fs, f.skipped = false → f.template ≠ none)
    {f : File R} (hf : f ∈ fs) (hread : f.skipped = false) {v : Value R} (hv : f.template = some v)
    {name : String} (hname : templateName v = .ok name) : (name, v) ∈ ts := by
  induction fs generalizing ts with
  | nil => simp at hf
  | cons g fs ih =>
    obtain ⟨hg, hfs⟩ := List.forall_mem_cons.mp hparses
    by_cases hskip : g.skipped = true
    · rw [templates_skipped hskip] at h
      obtain rfl | hf := List.mem_cons.mp hf
      · simp [hread] at hskip
      · exact ih h hfs hf
    have hgread : g.skipped = false := by simpa using hskip
    obtain ⟨w, hw⟩ := Option.ne_none_iff_exists'.mp (hg hgread)
    rw [templates_parsed hgread hw] at h
    obtain ⟨name', hname', h⟩ := bind_eq_ok.mp h
    obtain ⟨ts', hts, h⟩ := bind_eq_ok.mp h
    obtain rfl := Except.ok.inj h
    obtain rfl | hf := List.mem_cons.mp hf
    · obtain rfl : v = w := Option.some.inj (hv.symm.trans hw)
      obtain rfl : name = name' := Except.ok.inj (hname.symm.trans hname')
      exact List.mem_cons_self
    · exact List.mem_cons_of_mem _ (ih hts hfs hf)

lemma Lossless.complete {fs files : List (File R)} (h : Lossless fs) (hdistinct : Distinct fs)
    (hperm : files.Perm fs) : Complete fs files := by
  obtain ⟨ts, hts⟩ : ∃ ts, templates files = .ok ts :=
    exists_templates fun f hf => h.named f (hperm.mem_iff.mp hf)
  have hcarries {name : String} {v : Value R} (hv : ts.reverse.lookup name = some v) :
      Carries fs name v := by
    obtain ⟨f, hf, hread, hfv, hname⟩ := mem_templates hts (List.mem_reverse.mp (mem_of_lookup hv))
    obtain ⟨g, hg, htemplate, hgv⟩ := h.template f (hperm.mem_iff.mp hf) hread v hfv
    exact ⟨g, hg, htemplate, hgv, hname⟩
  refine ⟨ts, hts, fun name v => ⟨hcarries, fun hv => ?_⟩⟩
  obtain ⟨f, hf, htemplate, hfv, hname⟩ := hv
  have hparses : ∀ g ∈ files, g.skipped = false → g.template ≠ none := fun g hg =>
    h.parses ⟨f, hf, htemplate, by simp [hfv]⟩ g (hperm.mem_iff.mp hg)
  have hmem := mem_templates_of_parses hts hparses (hperm.mem_iff.mpr hf)
    (File.not_skipped htemplate) hfv hname
  obtain ⟨w, hw⟩ := exists_lookup (List.mem_reverse.mpr hmem)
  rw [hw, hdistinct name w v (hcarries hw) ⟨f, hf, htemplate, hfv, hname⟩]

section EveryOrder

omit [Double R] in
/-- Some order has the file first. -/
lemma exists_perm_cons {f : File R} {fs : List (File R)} (hf : f ∈ fs) :
    ∃ rest, (f :: rest).Perm fs := by
  obtain ⟨pre, post, rfl⟩ := List.append_of_mem hf
  exact ⟨pre ++ post, List.perm_middle.symm⟩

variable {fs : List (File R)} (h : ∀ files : List (File R), files.Perm fs → Complete fs files)
  {f : File R}

include h

/-- What is read first has a name. -/
lemma templateName_of_complete (hf : f ∈ fs) (hread : f.skipped = false) {v : Value R}
    (hv : f.template = some v) : ∃ name, templateName v = .ok name := by
  obtain ⟨rest, hperm⟩ := exists_perm_cons hf
  obtain ⟨ts, hts, -⟩ := h _ hperm
  rw [templates_parsed hread hv] at hts
  obtain ⟨name, hname, -⟩ := bind_eq_ok.mp hts
  exact ⟨name, hname⟩

/-- What is read last, or right before a file that does not parse, is what its name stands for. -/
lemma template_of_complete (hf : f ∈ fs) (hread : f.skipped = false) {v : Value R}
    (hv : f.template = some v) : ∃ g ∈ fs, g.isTemplate = true ∧ g.template = some v := by
  obtain ⟨name, hname⟩ := templateName_of_complete h hf hread hv
  obtain ⟨rest, hperm⟩ := exists_perm_cons hf
  by_cases hall : ∀ g ∈ rest, g.skipped = false → g.template ≠ none
  · obtain ⟨ts', hts'⟩ : ∃ ts, templates rest = .ok ts :=
      exists_templates fun g hg hgread w hw => templateName_of_complete h
        (hperm.mem_iff.mp (List.mem_cons_of_mem _ hg)) hgread hw
    have hlast : (rest ++ [f]).Perm fs := (List.perm_append_singleton f rest).trans hperm
    obtain ⟨ts, hts, hiff⟩ := h _ hlast
    rw [templates_append hall hts', templates_parsed hread hv, hname] at hts
    obtain rfl := Except.ok.inj hts
    obtain ⟨g, hg, htemplate, hgv, -⟩ := (hiff name v).mp (by simp)
    exact ⟨g, hg, htemplate, hgv⟩
  · -- nothing is read behind a file that does not parse
    obtain ⟨b, hb, hbread, hbv⟩ : ∃ b ∈ rest, b.skipped = false ∧ b.template = none := by
      simpa using hall
    obtain ⟨pre, post, rfl⟩ := List.append_of_mem hb
    have hsecond : (f :: b :: (pre ++ post)).Perm fs :=
      (List.perm_middle.symm.cons f).trans hperm
    obtain ⟨ts, hts, hiff⟩ := h _ hsecond
    rw [templates_parsed hread hv, hname, templates_unparsed hbread hbv] at hts
    obtain rfl := Except.ok.inj hts
    obtain ⟨g, hg, htemplate, hgv, -⟩ := (hiff name v).mp (by simp)
    exact ⟨g, hg, htemplate, hgv⟩

/-- What every order of the files leaves complete is lossless. -/
lemma lossless_of_complete : Lossless fs := by
  refine ⟨fun f hf hread v hv => templateName_of_complete h hf hread hv,
    fun f hf hread v hv => template_of_complete h hf hread hv, ?_⟩
  rintro ⟨g, hg, htemplate, hgv⟩ f hf hread hv
  obtain ⟨w, hw⟩ := Option.ne_none_iff_exists'.mp hgv
  obtain ⟨name, hname⟩ := templateName_of_complete h hg (File.not_skipped htemplate) hw
  obtain ⟨rest, hperm⟩ := exists_perm_cons hf
  obtain ⟨ts, hts, hiff⟩ := h _ hperm
  rw [templates_unparsed hread hv] at hts
  obtain rfl := Except.ok.inj hts
  simpa using (hiff name w).mpr ⟨g, hg, htemplate, hw, hname⟩

end EveryOrder

/-! ### The four directories -/

/-- The directories of templates list the same files, in any order. -/
def Relisted (root root' : Root R) : Prop :=
  ∀ type, (root'.template type).Perm (root.template type)

/-- The entries of a type are the templates the regular `.json` files of its directory carry. -/
def Loaded (root : Root R) (m : Map String (Map CfgType (Value R))) : Prop :=
  ∀ type name v, entry m name type = some v ↔ Carries (root.template type) name v

lemma parseTemplate_eq_ok {root : Root R} {m : Map String (Map CfgType (Value R))} :
    parseTemplate root = .ok m → ∀ type, ∃ ts, templates (root.template type) = .ok ts ∧
      ∀ name, entry m name type = ts.reverse.lookup name := by
  intro h type
  unfold parseTemplate at h
  simp only [List.foldlM_cons, List.foldlM_nil, parseTemplateFiles_eq] at h
  rcases h₁ : templates (root.template .attribute) with e | ts₁
  · simp [h₁, bind, Except.bind] at h
  rcases h₂ : templates (root.template .channel) with e | ts₂
  · simp [h₁, h₂, bind, Except.bind] at h
  rcases h₃ : templates (root.template .pointTable) with e | ts₃
  · simp [h₁, h₂, h₃, bind, Except.bind] at h
  rcases h₄ : templates (root.template .protocol) with e | ts₄
  · simp [h₁, h₂, h₃, h₄, bind, Except.bind] at h
  rw [h₁, h₂, h₃, h₄] at h
  obtain rfl := Except.ok.inj h
  have hempty (name : String) (type : CfgType) :
      entry (∅ : Map String (Map CfgType (Value R))) name type = none := by simp [entry]
  cases type
  · exact ⟨ts₁, h₁, fun name => by simp [entry_foldl, hempty]⟩
  · exact ⟨ts₂, h₂, fun name => by simp [entry_foldl, hempty]⟩
  · exact ⟨ts₃, h₃, fun name => by simp [entry_foldl, hempty]⟩
  · exact ⟨ts₄, h₄, fun name => by simp [entry_foldl, hempty]⟩

lemma exists_parseTemplate {root : Root R}
    (h : ∀ type, ∃ ts, templates (root.template type) = .ok ts) :
    ∃ m, parseTemplate root = .ok m := by
  obtain ⟨ts₁, h₁⟩ := h .attribute
  obtain ⟨ts₂, h₂⟩ := h .channel
  obtain ⟨ts₃, h₃⟩ := h .pointTable
  obtain ⟨ts₄, h₄⟩ := h .protocol
  unfold parseTemplate
  simp only [List.foldlM_cons, List.foldlM_nil, parseTemplateFiles_eq, h₁, h₂, h₃, h₄]
  exact ⟨_, rfl⟩

lemma loaded_iff {root root' : Root R} :
    (∃ m, parseTemplate root' = .ok m ∧ Loaded root m) ↔
      ∀ type, Complete (root.template type) (root'.template type) := by
  constructor
  · rintro ⟨m, hm, hloaded⟩ type
    obtain ⟨ts, hts, hentry⟩ := parseTemplate_eq_ok hm type
    exact ⟨ts, hts, fun name v => by rw [← hentry]; exact hloaded type name v⟩
  · intro h
    obtain ⟨m, hm⟩ := exists_parseTemplate fun type => (h type).imp fun _ hts => hts.1
    refine ⟨m, hm, fun type name v => ?_⟩
    obtain ⟨ts, hts, hentry⟩ := parseTemplate_eq_ok hm type
    obtain ⟨ts', hts', hiff⟩ := h type
    obtain rfl := Except.ok.inj (hts.symm.trans hts')
    rw [hentry, hiff]

/-- **The order of the files**: with templates whose names are distinct, every order in which the
directories are listed leaves the same entries, those of the regular `.json` files that parse,
exactly if every directory is read without a loss. -/
theorem parseTemplate_loaded_iff {root : Root R}
    (hdistinct : ∀ type, Distinct (root.template type)) :
    (∀ root', Relisted root root' → ∃ m, parseTemplate root' = .ok m ∧ Loaded root m) ↔
      ∀ type, Lossless (root.template type) := by
  constructor
  · intro h type
    refine lossless_of_complete fun files hperm => ?_
    let root' : Root R :=
      { root with template := fun type' => if type' = type then files else root.template type' }
    have hrelisted : Relisted root root' := by
      intro type'
      by_cases htype : type' = type
      · subst htype
        simpa [root'] using hperm
      · simp [root', htype]
    have hcomplete := loaded_iff.mp (h root' hrelisted) type
    simpa [root'] using hcomplete
  · intro h root' hrelisted
    exact loaded_iff.mpr fun type => (h type).complete (hdistinct type) (hrelisted type)

/-! ### A file that is no template -/

/-- A root with nothing but templates of protocols. -/
def protocols (files : List (File ℚ)) : Root ℚ where
  taskCfg := []
  devStore := []
  transStore := []
  composite := none
  template
    | .protocol => files
    | _ => []

def modbusTemplate : Value ℚ := .object [("name", .string "Modbus")]

def iec104Template : Value ℚ := .object [("name", .string "IEC104")]

def modbus : File ℚ := ⟨"Modbus.json", .reg, some modbusTemplate⟩

def iec104 : File ℚ := ⟨"IEC104.json", .reg, some iec104Template⟩

/-- A directory, which is passed over -/
def oldDir : File ℚ := ⟨"old", .dir, none⟩

def readme : File ℚ := ⟨"README.md", .reg, none⟩

lemma carries_protocols {files : List (File ℚ)}
    (h : ∀ f ∈ files, f = modbus ∨ f = iec104 ∨ f.value = none) {type : CfgType} {name : String}
    {v : Value ℚ} (hv : Carries ((protocols files).template type) name v) :
    name = "Modbus" ∧ v = modbusTemplate ∨ name = "IEC104" ∧ v = iec104Template := by
  obtain ⟨f, hf, -, hfv, hname⟩ := hv
  cases type with
  | protocol =>
    obtain rfl | rfl | hnone := h f hf
    · obtain rfl : modbusTemplate = v := Option.some.inj hfv
      exact .inl ⟨(Except.ok.inj hname).symm, rfl⟩
    · obtain rfl : iec104Template = v := Option.some.inj hfv
      exact .inr ⟨(Except.ok.inj hname).symm, rfl⟩
    · simp [File.template, hnone] at hfv
  | _ => simp [protocols] at hf

lemma distinct_protocols {files : List (File ℚ)}
    (h : ∀ f ∈ files, f = modbus ∨ f = iec104 ∨ f.value = none) (type : CfgType) :
    Distinct ((protocols files).template type) := by
  intro name v w hv hw
  obtain ⟨hname, rfl⟩ | ⟨hname, rfl⟩ := carries_protocols h hv <;>
    obtain ⟨hname', rfl⟩ | ⟨hname', rfl⟩ := carries_protocols h hw
  · rfl
  · exact absurd (hname.symm.trans hname') (by decide)
  · exact absurd (hname.symm.trans hname') (by decide)
  · rfl

/-- Two templates and a directory, listed in another order. -/
theorem modbus_loaded : ∃ m, parseTemplate (protocols [iec104, modbus, oldDir]) = .ok m ∧
    Loaded (protocols [modbus, oldDir, iec104]) m := by
  have hdistinct : ∀ type, Distinct ((protocols [modbus, oldDir, iec104]).template type) :=
    distinct_protocols (by simp [oldDir])
  have hlossless (type : CfgType) :
      Lossless ((protocols [modbus, oldDir, iec104]).template type) := by
    cases type with
    | protocol =>
      have hread (f : File ℚ) (hf : f ∈ [modbus, oldDir, iec104]) (hskip : f.skipped = false) :
          f = modbus ∨ f = iec104 := by
        simp only [List.mem_cons, List.not_mem_nil, or_false] at hf
        obtain rfl | rfl | rfl := hf
        · exact .inl rfl
        · exact absurd hskip (by decide)
        · exact .inr rfl
      refine ⟨fun f hf hskip v hv => ?_, fun f hf hskip v hv => ?_, fun _ f hf hskip => ?_⟩
      · obtain rfl | rfl := hread f hf hskip
        · exact ⟨"Modbus", (Option.some.inj hv) ▸ rfl⟩
        · exact ⟨"IEC104", (Option.some.inj hv) ▸ rfl⟩
      · obtain rfl | rfl := hread f hf hskip <;> exact ⟨_, hf, by decide, hv⟩
      · obtain rfl | rfl := hread f hf hskip <;> simp [modbus, iec104, File.template]
    | _ => constructor <;> simp [protocols]
  refine (parseTemplate_loaded_iff hdistinct).mpr hlossless _ fun type => ?_
  cases type with
  | protocol => exact (List.perm_append_singleton iec104 [modbus, oldDir]).symm
  | _ => exact .refl _

/-- Behind a file that does not parse nothing is read. -/
theorem readme_hides_modbus :
    ¬ ∀ root : Root ℚ, (∀ type, Distinct (root.template type)) →
      ∀ root', Relisted root root' → ∃ m, parseTemplate root' = .ok m ∧ Loaded root m := by
  intro h
  have hloaded := h (protocols [modbus, readme]) (distinct_protocols (by simp [readme]))
    (protocols [readme, modbus]) fun type => by
      cases type with
      | protocol => exact .swap modbus readme []
      | _ => exact .refl _
  obtain ⟨ts, hts, hiff⟩ := loaded_iff.mp hloaded .protocol
  have hnone : templates [readme, modbus] = .ok [] := templates_unparsed (by decide) rfl _
  obtain rfl : ts = [] := Except.ok.inj (hts.symm.trans hnone)
  have hmodbus : Carries [modbus, readme] "Modbus" modbusTemplate :=
    ⟨modbus, by simp, by decide, rfl, rfl⟩
  simpa using (hiff "Modbus" modbusTemplate).mpr hmodbus

end DataEngine.ConfigParse
