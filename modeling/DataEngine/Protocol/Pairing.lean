import DataEngine.Protocol.Exclusion

/-!
Which entry an instance of a plug-in is initialised with.

The instances and the configurations under a key are kept in two lists and paired by their
places. A plug-in that cannot be loaded leaves a configuration and no instance.
-/

namespace DataEngine.Pairing

open Json ConfigParse ChannelManager StartUp Exclusion Lib.Effect

/-- Those that are kept stand in front exactly if nothing that is dropped stands before one. -/
lemma filter_prefix_iff {α : Type} {p : α → Bool} {xs : List α} :
    xs.filter p <+: xs ↔ xs.Pairwise fun a b => p b → p a := by
  induction xs with
  | nil => simp
  | cons x xs ih =>
    rw [List.pairwise_cons, ← ih]
    by_cases hx : p x
    · simp [hx]
    · have hnil : xs.filter p <+: x :: xs ↔ xs.filter p = [] := by
        constructor
        · intro h
          rcases hf : xs.filter p with _ | ⟨y, ys⟩
          · rfl
          · rw [hf, List.cons_prefix_cons] at h
            have hy : y ∈ xs.filter p := by simp [hf]
            exact absurd (h.1 ▸ (List.mem_filter.mp hy).2) hx
        · intro h
          rw [h]
          exact List.nil_prefix
      rw [List.filter_cons_of_neg hx, hnil, List.filter_eq_nil_iff]
      simp only [hx, Bool.false_eq_true, imp_false]
      refine ⟨fun h => ⟨h, ?_⟩, fun h => h.1⟩
      rw [List.filter_eq_nil_iff.mpr h]
      exact List.nil_prefix

variable {R : Type} [Double R] (host : Host R)

/-- The plug-in of the entry, the `n`-th, has been loaded. -/
def loads (e : Entry R × ℕ) : Bool := host.loadProtocolLib e.2 e.1.plugName e.1.taskName

/-- What `createProtocol` leaves, with the number of an entry for the instance its processing
has registered, and for the configuration it has left. -/
structure Numbered where
  mapProtocol : Map String (List ℕ)
  mapValue : Map String (List ℕ)

def numberEntry (p : Numbered) (e : Entry R × ℕ) : Numbered where
  mapProtocol :=
    if loads host e then
      p.mapProtocol.insert e.1.key (p.mapProtocol[e.1.key]?.getD [] ++ [e.2])
    else p.mapProtocol
  mapValue := p.mapValue.insert e.1.key (p.mapValue[e.1.key]?.getD [] ++ [e.2])

def numbered (entries : List (Entry R)) : Numbered :=
  entries.zipIdx.foldl (numberEntry host) ⟨∅, ∅⟩

/-- The entry whose processing has registered an instance. -/
def loader (entries : List (Entry R)) (inst : Inst) : Option ℕ :=
  ((numbered host entries).mapProtocol[inst.key]?.getD [])[inst.index]?

/-- The entry whose configuration `start` passes to the `init` of an instance. -/
def given (entries : List (Entry R)) (inst : Inst) : Option ℕ :=
  ((numbered host entries).mapValue[inst.key]?.getD [])[inst.index]?

/-- Every instance is initialised with the entry that has loaded it, an entry whose plug-in could
not be loaded initialises none, and the devices are mapped to the instances whose entries list
them. -/
structure OwnConfig (entries : List (Entry R)) (sys : System) : Prop where
  own : ∀ info ∈ sys.vecProt, ∃ n,
    loader host entries info.pProt = some n ∧ given host entries info.pProt = some n
  failed : ∀ e ∈ entries.zipIdx, loads host e = false →
    ∀ info ∈ sys.vecProt, given host entries info.pProt ≠ some e.2
  ptr : ∀ d inst, sys.mapProtocolPtr[d]? = some inst → ∃ e ∈ entries.zipIdx,
    loader host entries inst = some e.2 ∧ ∃ names, namesOf e.1.cfgValue = .ok names ∧ d ∈ names
  listed : ∀ e ∈ entries.zipIdx, loads host e → ∀ names, namesOf e.1.cfgValue = .ok names →
    ∀ d ∈ names, ∃ inst, sys.mapProtocolPtr[d]? = some inst

/-- No entry whose plug-in could not be loaded stands before one of the same key whose plug-in
could. -/
def LoadsFirst (entries : List (Entry R)) : Prop :=
  entries.zipIdx.Pairwise fun a b => a.1.key = b.1.key → loads host b → loads host a

instance (entries : List (Entry R)) : Decidable (LoadsFirst host entries) :=
  inferInstanceAs (Decidable (List.Pairwise _ _))

/-! ### The entries under a key -/

/-- The entries under a key with their numbers. -/
def under (entries : List (Entry R)) (key : String) : List (Entry R × ℕ) :=
  entries.zipIdx.filter fun e => e.1.key = key

variable {host} {entries : List (Entry R)}

omit [Double R] in
lemma numbered_mapProtocol (key : String) :
    (numbered host entries).mapProtocol[key]?.getD [] =
      ((under entries key).filter (loads host)).map (·.2) := by
  unfold numbered under
  induction entries.zipIdx using List.reverseRecOn with
  | nil => simp
  | append_singleton es e ih =>
    rw [List.foldl_append, List.foldl_cons, List.foldl_nil, List.filter_append, List.filter_append,
      List.map_append, ← ih]
    unfold numberEntry
    by_cases hload : loads host e
    · rw [if_pos hload, Map.getElem?_insert]
      by_cases hkey : e.1.key = key
      · subst hkey
        simp [hload]
      · simp [hkey, Ne.symm hkey]
    · by_cases hkey : e.1.key = key <;> simp [hload, hkey]

omit [Double R] in
lemma numbered_mapValue (key : String) :
    (numbered host entries).mapValue[key]?.getD [] = (under entries key).map (·.2) := by
  unfold numbered under
  induction entries.zipIdx using List.reverseRecOn with
  | nil => simp
  | append_singleton es e ih =>
    rw [List.foldl_append, List.foldl_cons, List.foldl_nil, List.filter_append, List.map_append,
      ← ih]
    simp only [numberEntry, Map.getElem?_insert]
    by_cases hkey : e.1.key = key
    · subst hkey
      simp
    · simp [hkey, Ne.symm hkey]

omit [Double R] in
lemma loader_eq (inst : Inst) : loader host entries inst =
    ((under entries inst.key).filter (loads host))[inst.index]?.map (·.2) := by
  rw [loader, numbered_mapProtocol, List.getElem?_map]

omit [Double R] in
lemma given_eq (inst : Inst) :
    given host entries inst = (under entries inst.key)[inst.index]?.map (·.2) := by
  rw [given, numbered_mapValue, List.getElem?_map]

omit [Double R] in
lemma under_sub {key : String} {e : Entry R × ℕ} (h : e ∈ under entries key) :
    e ∈ entries.zipIdx ∧ e.1.key = key := by
  obtain ⟨hmem, hkey⟩ := List.mem_filter.mp h
  exact ⟨hmem, of_decide_eq_true hkey⟩

omit [Double R] in
/-- A number tells which entry it is. -/
lemma zipIdx_inj {a b : Entry R × ℕ} (ha : a ∈ entries.zipIdx) (hb : b ∈ entries.zipIdx)
    (h : a.2 = b.2) : a = b := by
  obtain ⟨x, n⟩ := a
  obtain ⟨y, m⟩ := b
  obtain rfl : n = m := h
  rw [List.mem_zipIdx_iff_getElem?] at ha hb
  obtain rfl := Option.some.inj (ha.symm.trans hb)
  rfl

omit [Double R] in
/-- The pairing is right under every key exactly if the loaded entries stand in front. -/
lemma loadsFirst_iff : LoadsFirst host entries ↔
    ∀ key, (under entries key).filter (loads host) <+: under entries key := by
  simp only [filter_prefix_iff, under, List.pairwise_filter, LoadsFirst, decide_eq_true_eq]
  constructor
  · intro h key
    exact h.imp fun hab ha hb => hab (ha.trans hb.symm)
  · intro h
    rw [List.pairwise_iff_getElem]
    intro i j hi hj hij hkey
    exact List.pairwise_iff_getElem.mp (h _) i j hi hj hij hkey rfl

/-! ### What start-up pairs -/

section Started

variable {channels : Manager} {sys : System}

omit [Double R] in
/-- The numbers stand for what `createProtocol` leaves. -/
lemma mem_registered_iff {inst : Inst} :
    inst ∈ instances (entries.zipIdx.foldl (createEntry host) ⟨∅, ∅⟩) ↔
      inst.index < ((under entries inst.key).filter (loads host)).length := by
  rw [mem_instances, createEntry_loaded, under, List.filter_filter, List.countP_eq_length_filter]
  simp only [loads, Bool.and_comm]

omit [Double R] in
lemma value_eq (inst : Inst) :
    ((entries.zipIdx.foldl (createEntry host) ⟨∅, ∅⟩).mapValue[inst.key]?.getD [])[inst.index]? =
      (under entries inst.key)[inst.index]?.map (·.1.cfgValue) := by
  have hkept : kept entries inst.key = (under entries inst.key).map (·.1.cfgValue) := by
    rw [kept, under]
    conv_lhs => rw [← List.zipIdx_map_fst 0 entries]
    rw [List.filter_map, List.map_map]
    rfl
  rw [createEntry_kept, List.zipIdx_map_fst, hkept, List.getElem?_map]

omit [Double R] in
/-- The configuration an instance is initialised with is that of the entry it is given. -/
lemma value_of_given {inst : Inst} {n : ℕ} (h : given host entries inst = some n) :
    ∃ e, entries[n]? = some e ∧
      ((entries.zipIdx.foldl (createEntry host) ⟨∅, ∅⟩).mapValue[inst.key]?.getD [])[inst.index]? =
        some e.cfgValue := by
  rw [given_eq] at h
  obtain ⟨e, he, rfl⟩ := Option.map_eq_some_iff.mp h
  refine ⟨e.1, ?_, by rw [value_eq, he]; rfl⟩
  exact List.mem_zipIdx_iff_getElem?.mp (under_sub (List.mem_of_getElem? he)).1

/-- An instance that runs has an entry, and lists what that names. -/
lemma infos_of_start
    (h : start channels (entries.zipIdx.foldl (createEntry host) ⟨∅, ∅⟩) = .ok sys)
    {info : ProtocolInfo} : info ∈ sys.vecProt ↔
      info.pProt.index < ((under entries info.pProt.key).filter (loads host)).length ∧
        ∃ e, (under entries info.pProt.key)[info.pProt.index]? = some e ∧
          namesOf e.1.cfgValue = .ok info.vecDevName := by
  obtain ⟨vecProt, hvec, h⟩ := bind_eq_ok.mp h
  obtain rfl := Except.ok.inj h
  rw [mem_of_mapM hvec]
  simp only [mem_registered_iff, infoOf_ok, value_eq, Option.map_eq_some_iff]
  constructor
  · rintro ⟨_, hlt, rfl, _, ⟨e, he, rfl⟩, hnames⟩
    exact ⟨hlt, e, he, hnames⟩
  · rintro ⟨hlt, e, he, hnames⟩
    exact ⟨_, hlt, rfl, _, ⟨e, he, rfl⟩, hnames⟩

/-- Every instance that has been registered runs. -/
lemma exists_info
    (h : start channels (entries.zipIdx.foldl (createEntry host) ⟨∅, ∅⟩) = .ok sys)
    (inst : Inst) (hlt : inst.index < ((under entries inst.key).filter (loads host)).length) :
    ∃ info ∈ sys.vecProt, info.pProt = inst := by
  obtain ⟨vecProt, hvec, h⟩ := bind_eq_ok.mp h
  obtain rfl := Except.ok.inj h
  have hreg := mem_registered_iff.mpr hlt
  obtain ⟨info, hinfo⟩ := exists_mapM_eq_ok.mp ⟨vecProt, hvec⟩ inst hreg
  exact ⟨info, (mem_of_mapM hvec).mpr ⟨inst, hreg, hinfo⟩, (infoOf_ok.mp hinfo).1⟩

lemma exists_ptr {infos : List ProtocolInfo} {info : ProtocolInfo} (hinfo : info ∈ infos)
    {d : String} (hd : d ∈ info.vecDevName) : ∃ inst, (infos.foldl addPtr ∅)[d]? = some inst := by
  induction infos using List.reverseRecOn with
  | nil => simp at hinfo
  | append_singleton infos x ih =>
    rw [List.foldl_append, List.foldl_cons, List.foldl_nil, addPtr, Map.getElem?_foldl_insert]
    split_ifs with hx
    · exact ⟨_, rfl⟩
    · rcases List.mem_append.mp hinfo with hinfo | hinfo
      · exact ih hinfo
      · exact absurd (List.mem_singleton.mp hinfo ▸ hd) hx

omit [Double R] in
/-- With the loaded entries in front, an instance is given the entry that has loaded it. -/
lemma given_of_loadsFirst (hfirst : LoadsFirst host entries) {inst : Inst} {e : Entry R × ℕ}
    (he : ((under entries inst.key).filter (loads host))[inst.index]? = some e) :
    (under entries inst.key)[inst.index]? = some e := by
  obtain ⟨hlt, rfl⟩ := List.getElem?_eq_some_iff.mp he
  exact List.prefix_iff_getElem?.mp (loadsFirst_iff.mp hfirst inst.key) inst.index hlt

lemma ownConfig_of_loadsFirst
    (h : start channels (entries.zipIdx.foldl (createEntry host) ⟨∅, ∅⟩) = .ok sys)
    (hfirst : LoadsFirst host entries) : OwnConfig host entries sys := by
  have hown (info : ProtocolInfo) (hinfo : info ∈ sys.vecProt) : ∃ e,
      ((under entries info.pProt.key).filter (loads host))[info.pProt.index]? = some e ∧
        (under entries info.pProt.key)[info.pProt.index]? = some e ∧
          namesOf e.1.cfgValue = .ok info.vecDevName := by
    obtain ⟨hlt, e, he, hnames⟩ := (infos_of_start h).mp hinfo
    have hloaded := List.getElem?_eq_getElem hlt
    have hsame := Option.some.inj ((given_of_loadsFirst hfirst hloaded).symm.trans he)
    exact ⟨e, by rw [hloaded, hsame], he, hnames⟩
  refine ⟨fun info hinfo => ?_, fun x hx hload info hinfo hgiven => ?_, fun d inst hd => ?_,
    fun e he hload names hnames d hd => ?_⟩
  · obtain ⟨e, hloaded, he, -⟩ := hown info hinfo
    exact ⟨e.2, by rw [loader_eq, hloaded]; rfl, by rw [given_eq, he]; rfl⟩
  · obtain ⟨e, hloaded, he, -⟩ := hown info hinfo
    rw [given_eq, he] at hgiven
    have hmem := List.mem_of_getElem? hloaded
    obtain ⟨hunder, hload'⟩ := List.mem_filter.mp hmem
    obtain rfl := zipIdx_inj (under_sub hunder).1 hx (Option.some.inj hgiven)
    rw [hload] at hload'
    cases hload'
  · obtain ⟨info, hinfo, rfl, hname⟩ := start_ptrListed h d inst hd
    obtain ⟨e, hloaded, he, hnames⟩ := hown info hinfo
    exact ⟨e, (under_sub (List.mem_of_getElem? he)).1, by rw [loader_eq, hloaded]; rfl, _, hnames,
      hname⟩
  · have hmem : e ∈ (under entries e.1.key).filter (loads host) :=
      List.mem_filter.mpr ⟨List.mem_filter.mpr ⟨he, decide_eq_true rfl⟩, hload⟩
    obtain ⟨i, hi⟩ := List.getElem?_of_mem hmem
    obtain ⟨info, hinfo, hinst⟩ := exists_info h ⟨e.1.key, i⟩
      (List.getElem?_eq_some_iff.mp hi).1
    obtain ⟨e', hloaded, -, hnames'⟩ := hown info hinfo
    rw [hinst] at hloaded
    obtain rfl := Option.some.inj (hi.symm.trans hloaded)
    obtain rfl := Except.ok.inj (hnames.symm.trans hnames')
    obtain ⟨vecProt, -, h⟩ := bind_eq_ok.mp h
    obtain rfl := Except.ok.inj h
    exact exists_ptr hinfo hd

lemma loadsFirst_of_ownConfig
    (h : start channels (entries.zipIdx.foldl (createEntry host) ⟨∅, ∅⟩) = .ok sys)
    (hown : OwnConfig host entries sys) : LoadsFirst host entries := by
  refine loadsFirst_iff.mpr fun key => List.prefix_iff_getElem?.mpr fun i hi => ?_
  obtain ⟨info, hinfo, hinst⟩ := exists_info h ⟨key, i⟩ hi
  obtain ⟨n, hloader, hgiven⟩ := hown.own info hinfo
  rw [hinst, loader_eq, List.getElem?_eq_getElem hi] at hloader
  rw [hinst, given_eq] at hgiven
  obtain ⟨e, he, hn⟩ := Option.map_eq_some_iff.mp hgiven
  have hmem := under_sub (List.mem_of_getElem? he)
  have hmem' := under_sub (List.mem_filter.mp (List.getElem_mem hi)).1
  have hsame : (((under entries key).filter (loads host))[i]).2 = e.2 := by
    rw [hn]
    exact Option.some.inj hloader
  rw [zipIdx_inj hmem'.1 hmem.1 hsame]
  exact he

end Started

/-- **Every instance runs its own configuration** exactly if, among the entries of one key, none
whose plug-in could not be loaded stands before one whose plug-in could. -/
theorem ownConfig_iff (mapCfgProtocol : List (String × List (Value R))) (channels : Manager)
    {sys : System} (hentries : entriesOf mapCfgProtocol = .ok entries)
    (hstart : (do start channels (← createProtocol host mapCfgProtocol)) = .ok sys) :
    OwnConfig host entries sys ↔ LoadsFirst host entries := by
  obtain ⟨p, hp, hstart⟩ := bind_eq_ok.mp hstart
  obtain ⟨entries', hentries', hp⟩ := bind_eq_ok.mp hp
  obtain rfl := Except.ok.inj (hentries.symm.trans hentries')
  obtain rfl := Except.ok.inj hp
  exact ⟨loadsFirst_of_ownConfig hstart, ownConfig_of_loadsFirst hstart⟩

/-! ### Two tasks with one key -/

def protocolCfg (plugName name : String) : Value ℚ :=
  .object [("names", .array [.string name]), ("plugName", .string plugName)]

/-- The names of a task and of its plug-in run together in the key. -/
def sharedKey : List (String × List (Value ℚ)) :=
  [("A", [protocolCfg "BC" "x"]), ("AB", [protocolCfg "C" "y"])]

def sharedEntries : List (Entry ℚ) :=
  [⟨"A", "BC", protocolCfg "BC" "x"⟩, ⟨"AB", "C", protocolCfg "C" "y"⟩]

lemma sharedKey_entries : entriesOf sharedKey = .ok sharedEntries := rfl

/-- The plug-ins of the entries from the `n`-th on can be loaded. -/
def loadFrom (n : ℕ) : Host ℚ := ⟨.null, fun m _ _ => n ≤ m⟩

lemma sharedKey_starts (n : ℕ) (hn : n ≤ 1) : ∃ p sys,
    createProtocol (loadFrom n) sharedKey = .ok p ∧ start ⟨∅, []⟩ p = .ok sys ∧
      p = sharedEntries.zipIdx.foldl (createEntry (loadFrom n)) ⟨∅, ∅⟩ := by
  set p := sharedEntries.zipIdx.foldl (createEntry (loadFrom n)) ⟨∅, ∅⟩ with hp
  have hok : ∀ n ≤ 1, (start (⟨∅, []⟩ : Manager) (sharedEntries.zipIdx.foldl
      (createEntry (loadFrom n)) ⟨∅, ∅⟩)).toOption.isSome := by decide +kernel
  rcases hsys : start (⟨∅, []⟩ : Manager) p with e | sys
  · have := hok n hn
    rw [← hp, hsys] at this
    cases this
  · refine ⟨p, sys, ?_, hsys, rfl⟩
    rw [createProtocol, sharedKey_entries]
    rfl

/-- With both plug-ins loaded the instances run their own configurations. -/
theorem own_if_all_load : ∃ sys,
    (do start ⟨∅, []⟩ (← createProtocol (loadFrom 0) sharedKey)) = .ok sys ∧
      OwnConfig (loadFrom 0) sharedEntries sys := by
  obtain ⟨p, sys, hp, hsys, -⟩ := sharedKey_starts 0 (by omega)
  have hstart := bind_eq_ok.mpr ⟨p, hp, hsys⟩
  refine ⟨sys, hstart, (ownConfig_iff sharedKey ⟨∅, []⟩ sharedKey_entries hstart).mpr ?_⟩
  decide +kernel

/-- The first plug-in cannot be loaded, and the instance of the second runs the configuration of
the first. -/
theorem failed_load_shifts : ∃ sys,
    (do start ⟨∅, []⟩ (← createProtocol (loadFrom 1) sharedKey)) = .ok sys ∧
      loader (loadFrom 1) sharedEntries ⟨"ABC", 0⟩ = some 1 ∧
      given (loadFrom 1) sharedEntries ⟨"ABC", 0⟩ = some 0 ∧
      ¬ OwnConfig (loadFrom 1) sharedEntries sys := by
  obtain ⟨p, sys, hp, hsys, rfl⟩ := sharedKey_starts 1 le_rfl
  refine ⟨sys, bind_eq_ok.mpr ⟨_, hp, hsys⟩, by decide +kernel, by decide +kernel, fun hown => ?_⟩
  exact absurd (loadsFirst_of_ownConfig hsys hown) (by decide +kernel)

end DataEngine.Pairing
