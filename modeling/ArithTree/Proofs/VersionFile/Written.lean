/-
# Writing version files

A version file is written section by section, each as a heading with its keys
below it and the values in quotes.  Whatever the order of the sections and of
the keys in them, what is written is read as the same file (`load_write`).

The proof follows the text: it is cut into the lines that were written
(`lines_joined`), each line does what it was written for (`of_headingLine`,
`of_settingLine`), so the entries are set one after the other, and no two of
them are about the same key.  That the result is the same file, and not just one
with the same values, is `ext_get?`.
-/
import ArithTree.Proofs.Text
import ArithTree.Proofs.VersionFile
import Mathlib.Data.List.Dedup
import Mathlib.Data.List.Pairwise
import Mathlib.Data.List.Perm.Basic

namespace ArithTree.VersionFile

/-! ## Files by their values -/

theorem Entry.not_before_of_sameKey {e f : Entry} (h : e.sameKey f) : ¬ e.before f := by
  rintro (hlt | ⟨_, hlt⟩)
  · exact String.lt_irrefl _ (h.1 ▸ hlt)
  · exact String.lt_irrefl _ (h.2 ▸ hlt)

theorem pairwise_not_sameKey (file : VersionFile) :
    file.entries.Pairwise fun e f => ¬ e.sameKey f :=
  file.ordered.imp fun hbefore hsame => Entry.not_before_of_sameKey hsame hbefore

theorem eq_of_sameKey {file : VersionFile} {e f : Entry} (he : e ∈ file.entries)
    (hf : f ∈ file.entries) (h : e.sameKey f) : e = f := by
  have hsymm : Std.Symm fun e f : Entry => ¬ e.sameKey f :=
    ⟨fun _ _ hnot hsame => hnot ⟨hsame.1.symm, hsame.2.symm⟩⟩
  by_contra hne
  exact (pairwise_not_sameKey file).forall he hf hne h

theorem get?_eq_some_iff {file : VersionFile} {heading key value : String} :
    file.get? heading key = some value ↔ ⟨heading, key, value⟩ ∈ file.entries := by
  rw [get?, Option.map_eq_some_iff]
  constructor
  · rintro ⟨e, hfind, rfl⟩
    obtain ⟨rfl, rfl⟩ : e.heading = heading ∧ e.key = key := by simpa using List.find?_some hfind
    exact List.mem_of_find?_eq_some hfind
  · intro hmem
    have hsome : (file.entries.find? fun e => e.heading = heading ∧ e.key = key).isSome = true :=
      List.find?_isSome.mpr ⟨_, hmem, by simp⟩
    obtain ⟨e, hfind⟩ := Option.isSome_iff_exists.mp hsome
    have hsame : e.heading = heading ∧ e.key = key := by simpa using List.find?_some hfind
    exact ⟨e, hfind, by rw [eq_of_sameKey (List.mem_of_find?_eq_some hfind) hmem hsame]⟩

theorem ext_get? {file file' : VersionFile}
    (h : ∀ heading key, file.get? heading key = file'.get? heading key) : file = file' := by
  have hnodup : ∀ file : VersionFile, file.entries.Nodup := by
    intro file
    refine (pairwise_not_sameKey file).imp ?_
    rintro e f hnot rfl
    exact hnot ⟨rfl, rfl⟩
  have hmem : ∀ e, e ∈ file.entries ↔ e ∈ file'.entries := by
    intro e
    have hget := @get?_eq_some_iff file e.heading e.key e.value
    rw [h] at hget
    exact hget.symm.trans get?_eq_some_iff
  have hperm : file.entries.Perm file'.entries :=
    (List.perm_ext_iff_of_nodup (hnodup file) (hnodup file')).mpr hmem
  have hentries : file.entries = file'.entries := by
    refine hperm.eq_of_pairwise ?_ file.ordered file'.ordered
    intro e f _ _ hef hfe
    exact absurd (Entry.before_trans hef hfe) (Entry.not_before_of_sameKey ⟨rfl, rfl⟩)
  cases file
  cases file'
  cases hentries
  rfl

/-! ## What is written -/

/-- A heading with what is set under it, in the order in which it is written. -/
structure Section where
  heading : String
  settings : List (String × String)
  deriving DecidableEq, Repr

def headingLine (name : String) : String :=
  "[" ++ name ++ "]"

def settingLine (key value : String) : String :=
  key ++ " = \"" ++ value ++ "\""

namespace Section

def lines (s : Section) : List String :=
  headingLine s.heading :: s.settings.map fun (key, value) => settingLine key value

def entries (s : Section) : List Entry :=
  s.settings.map fun (key, value) => ⟨s.heading, key, value⟩

theorem lines_eq (s : Section) :
    s.lines = headingLine s.heading :: s.entries.map fun e => settingLine e.key e.value := by
  simp [lines, entries]

theorem mem_entries {s : Section} {e : Entry} :
    e ∈ s.entries ↔ s.heading = e.heading ∧ (e.key, e.value) ∈ s.settings := by
  obtain ⟨heading, key, value⟩ := e
  simp [entries, and_comm]

end Section

/-- Lines one below the other, each ended by a line feed. -/
def joined (lines : List String) : String :=
  String.join (lines.map (· ++ "\n"))

def write (sections : List Section) : String :=
  joined (sections.flatMap Section.lines)

/-- The sections say what the file says: each heading of the file stands once, and
under it each of its keys once. -/
structure Lists (sections : List Section) (file : VersionFile) : Prop where
  headings_nodup : (sections.map Section.heading).Nodup
  settings_ne_nil : ∀ s ∈ sections, s.settings ≠ []
  keys_nodup : ∀ s ∈ sections, (s.settings.map Prod.fst).Nodup
  content : ∀ heading key value, (∃ s ∈ sections, s.heading = heading ∧ (key, value) ∈ s.settings) ↔
    file.get? heading key = some value

/-- An entry can be written: nothing of it breaks a line or is taken for something
else. -/
structure Writable (e : Entry) : Prop where
  heading_feed : '\n' ∉ e.heading.toList
  key_feed : '\n' ∉ e.key.toList
  key_mark : '=' ∉ e.key.toList
  key_head : ∀ c ∈ e.key.toList.head?, Text.isBlank c = false ∧ c ≠ ';' ∧ c ≠ '#'
  key_last : ∀ c ∈ e.key.toList.getLast?, Text.isBlank c = false
  value_feed : '\n' ∉ e.value.toList
  value_head : e.value.toList.head? ≠ some '"'
  value_last : e.value.toList.getLast? ≠ some '"'

/-! ## The lines of what is written -/

theorem toList_headingLine (name : String) :
    (headingLine name).toList = '[' :: (name.toList ++ [']']) := by
  simp [headingLine]

theorem toList_settingLine (key value : String) : (settingLine key value).toList =
    key.toList ++ ' ' :: '=' :: ' ' :: '"' :: (value.toList ++ ['"']) := by
  simp [settingLine]

/-- Whatever stands before the mark, a line that sets a key ends with a quote. -/
theorem getLast?_settingLine (before value : List Char) :
    (before ++ '=' :: ' ' :: '"' :: (value ++ ['"'])).getLast? = some '"' := by
  have hassoc : before ++ '=' :: ' ' :: '"' :: (value ++ ['"']) =
      (before ++ '=' :: ' ' :: '"' :: value) ++ ['"'] := by simp
  rw [hassoc, List.getLast?_concat]

theorem cutInto_joined : ∀ {lines : List String},
    (∀ line ∈ lines, '\n' ∉ line.toList ∧ line.toList.getLast? ≠ some '\r') →
      Text.CutInto (joined lines).toList (lines.map String.toList)
  | [], _ => .nil
  | line :: lines, h => by
      obtain ⟨hfeed, hreturn⟩ := h line List.mem_cons_self
      have hrest := cutInto_joined fun line hline => h line (List.mem_cons_of_mem _ hline)
      have hjoined : (joined (line :: lines)).toList =
          line.toList ++ '\n' :: (joined lines).toList := by
        simp [joined, String.join_cons]
      rw [hjoined]
      exact .feed hfeed hreturn hrest

theorem lines_joined {lines : List String}
    (h : ∀ line ∈ lines, '\n' ∉ line.toList ∧ line.toList.getLast? ≠ some '\r') :
    Text.lines (joined lines) = lines :=
  Text.lines_eq_iff.mpr (cutInto_joined h)

/-! ## What the lines do -/

theorem of_headingLine (name : String) : Line.of (headingLine name) = .heading name := by
  have htrimmed : trimmed (headingLine name) = '[' :: (name.toList ++ [']']) := by
    rw [trimmed, Text.trim, String.toList_ofList, toList_headingLine]
    refine Text.strip_self ?_ ?_
    · rintro c ⟨⟩
      decide
    · rw [← List.cons_append, List.getLast?_concat]
      rintro c ⟨⟩
      decide
  rw [of_eq_ofTrimmed, ofTrimmed_eq_heading_iff, htrimmed]
  rfl

theorem isCore_key {key : List Char} (hhead : ∀ c ∈ key.head?, Text.isBlank c = false)
    (hlast : ∀ c ∈ key.getLast?, Text.isBlank c = false) :
    Text.IsCore Text.isBlank (key ++ [' ']) key where
  between := ⟨[], [' '], rfl, by simp, by simp; decide⟩
  head := hhead
  last := hlast

theorem isCore_quoted (value : List Char) :
    Text.IsCore Text.isBlank (' ' :: '"' :: (value ++ ['"'])) ('"' :: (value ++ ['"'])) where
  between := ⟨[' '], [], by simp, by simp; decide, by simp⟩
  head := by
    rintro c ⟨⟩
    decide
  last := by
    rw [← List.cons_append, List.getLast?_concat]
    rintro c ⟨⟩
    decide

theorem isCore_value {value : List Char} (hhead : value.head? ≠ some '"')
    (hlast : value.getLast? ≠ some '"') :
    Text.IsCore (· == '"') ('"' :: (value ++ ['"'])) value where
  between := ⟨['"'], ['"'], rfl, by simp, by simp⟩
  head := by
    intro c hc
    exact beq_eq_false_iff_ne.mpr fun heq => hhead (heq ▸ hc)
  last := by
    intro c hc
    exact beq_eq_false_iff_ne.mpr fun heq => hlast (heq ▸ hc)

theorem exists_trimmed_settingLine {e : Entry} (h : Writable e) :
    ∃ before, trimmed (settingLine e.key e.value) =
        before ++ '=' :: ' ' :: '"' :: (e.value.toList ++ ['"']) ∧
      '=' ∉ before ∧ Text.IsCore Text.isBlank before e.key.toList ∧
      ∀ c ∈ before.head?, c ≠ ';' ∧ c ≠ '#' := by
  have hlast : ∀ before : List Char,
      ∀ c ∈ (before ++ '=' :: ' ' :: '"' :: (e.value.toList ++ ['"'])).getLast?,
        Text.isBlank c = false := by
    intro before
    rw [getLast?_settingLine]
    rintro c ⟨⟩
    decide
  rw [trimmed, Text.trim, String.toList_ofList, toList_settingLine]
  cases hkey : e.key.toList with
  | nil =>
      refine ⟨[], Text.IsCore.strip_eq ⟨⟨[' '], [], by simp, by simp; decide, by simp⟩, ?_, hlast []⟩,
        List.not_mem_nil, ⟨⟨[], [], rfl, by simp, by simp⟩, by simp, by simp⟩, by simp⟩
      rintro c ⟨⟩
      decide
  | cons c rest =>
      have hc : Text.isBlank c = false ∧ c ≠ ';' ∧ c ≠ '#' := h.key_head c (by simp [hkey])
      have hmark : '=' ∉ c :: rest := hkey ▸ h.key_mark
      refine ⟨c :: rest ++ [' '], ?_, by simpa using hmark, ?_, ?_⟩
      · have hassoc : c :: rest ++ ' ' :: '=' :: ' ' :: '"' :: (e.value.toList ++ ['"']) =
            (c :: rest ++ [' ']) ++ '=' :: ' ' :: '"' :: (e.value.toList ++ ['"']) := by simp
        rw [hassoc]
        refine Text.strip_self ?_ (hlast _)
        rintro _ ⟨⟩
        exact hc.1
      · refine isCore_key ?_ (hkey ▸ h.key_last)
        rintro _ ⟨⟩
        exact hc.1
      · rintro _ ⟨⟩
        exact hc.2

theorem of_settingLine {e : Entry} (h : Writable e) :
    Line.of (settingLine e.key e.value) = .setting e.key e.value := by
  obtain ⟨before, htrimmed, hmark, hkey, hhead⟩ := exists_trimmed_settingLine h
  rw [of_eq_ofTrimmed, ofTrimmed_eq_setting_iff, htrimmed]
  refine ⟨by simp, ?_, ?_, before, _, _, rfl, hmark, hkey, isCore_quoted _,
    isCore_value h.value_head h.value_last⟩
  · cases before with
    | nil => exact ⟨by simp, by simp⟩
    | cons c rest => simpa using hhead c rfl
  · rintro ⟨_, hlast⟩
    rw [getLast?_settingLine] at hlast
    exact absurd (Option.some.inj hlast) (by decide)

/-! ## Reading what is written -/

theorem step_headingLine (r : Reading) (name : String) :
    r.step (headingLine name) = { r with heading := some name } := by
  rw [Reading.step, of_headingLine]

theorem step_settingLine {e : Entry} (h : Writable e) (file : VersionFile) :
    Reading.step ⟨some e.heading, file⟩ (settingLine e.key e.value) =
      ⟨some e.heading, file.set e⟩ := by
  rw [Reading.step, of_settingLine h]

theorem foldl_step_settings {heading : String} : ∀ {es : List Entry} (file : VersionFile),
    (∀ e ∈ es, e.heading = heading ∧ Writable e) →
      (es.map fun e => settingLine e.key e.value).foldl Reading.step ⟨some heading, file⟩ =
        ⟨some heading, es.foldl set file⟩
  | [], _, _ => rfl
  | e :: es, file, h => by
      obtain ⟨⟨rfl, hfirst⟩, hrest⟩ := List.forall_mem_cons.mp h
      rw [List.map_cons, List.foldl_cons, step_settingLine hfirst, foldl_step_settings _ hrest,
        List.foldl_cons]

theorem file_foldl_step : ∀ {sections : List Section} (r : Reading),
    (∀ e ∈ sections.flatMap Section.entries, Writable e) →
      ((sections.flatMap Section.lines).foldl Reading.step r).file =
        (sections.flatMap Section.entries).foldl set r.file
  | [], _, _ => rfl
  | s :: sections, r, h => by
      rw [List.flatMap_cons, List.forall_mem_append] at h
      have hfirst : ∀ e ∈ s.entries, e.heading = s.heading ∧ Writable e := fun e he =>
        ⟨(Section.mem_entries.mp he).1.symm, h.1 e he⟩
      rw [List.flatMap_cons, List.flatMap_cons, List.foldl_append, List.foldl_append,
        file_foldl_step _ h.2, Section.lines_eq, List.foldl_cons, step_headingLine,
        foldl_step_settings _ hfirst]

theorem get?_foldl_set_of_forall_ne {heading key : String} : ∀ {es : List Entry} {file : VersionFile},
    (∀ e ∈ es, ¬ (e.heading = heading ∧ e.key = key)) →
      (es.foldl set file).get? heading key = file.get? heading key
  | [], _, _ => rfl
  | e :: es, file, h => by
      obtain ⟨hfirst, hrest⟩ := List.forall_mem_cons.mp h
      rw [List.foldl_cons, get?_foldl_set_of_forall_ne hrest, get?_set, if_neg hfirst]

theorem get?_foldl_set_of_mem {e : Entry} : ∀ {es : List Entry} {file : VersionFile},
    (es.Pairwise fun e f => ¬ e.sameKey f) → e ∈ es →
      (es.foldl set file).get? e.heading e.key = some e.value
  | f :: es, file, hdiffer, he => by
      obtain ⟨hfirst, hrest⟩ := List.pairwise_cons.mp hdiffer
      rw [List.foldl_cons]
      rcases List.mem_cons.mp he with rfl | he
      · have hother : ∀ f ∈ es, ¬ (f.heading = e.heading ∧ f.key = e.key) := fun f hf hsame =>
          hfirst f hf ⟨hsame.1.symm, hsame.2.symm⟩
        rw [get?_foldl_set_of_forall_ne hother, get?_set, if_pos ⟨rfl, rfl⟩]
      · exact get?_foldl_set_of_mem hrest he

namespace Lists
variable {sections : List Section} {file : VersionFile}

theorem entries_ne_nil (h : Lists sections file) {s : Section} (hs : s ∈ sections) :
    s.entries ≠ [] := by
  simpa [Section.entries] using h.settings_ne_nil s hs

theorem mem_entries_iff (h : Lists sections file) {e : Entry} :
    e ∈ sections.flatMap Section.entries ↔ e ∈ file.entries := by
  rw [List.mem_flatMap]
  simp only [Section.mem_entries]
  exact (h.content e.heading e.key e.value).trans get?_eq_some_iff

theorem pairwise_not_sameKey (h : Lists sections file) :
    (sections.flatMap Section.entries).Pairwise fun e f => ¬ e.sameKey f := by
  refine List.pairwise_flatMap.mpr ⟨?_, ?_⟩
  · intro s hs
    refine List.pairwise_map.mpr ((List.pairwise_map.mp (h.keys_nodup s hs)).imp ?_)
    intro a b hne hsame
    exact hne hsame.2
  · refine (List.pairwise_map.mp h.headings_nodup).imp ?_
    intro s t hne e he f hf hsame
    rw [Section.mem_entries] at he hf
    exact hne (he.1.trans (hsame.1.trans hf.1.symm))

/-- The entries that the sections list make up the file, in whatever order they
are set. -/
theorem foldl_set (h : Lists sections file) :
    (sections.flatMap Section.entries).foldl set empty = file := by
  refine ext_get? fun heading key => ?_
  cases hget : file.get? heading key with
  | some value =>
      have hmem := h.mem_entries_iff.mpr (get?_eq_some_iff.mp hget)
      exact get?_foldl_set_of_mem h.pairwise_not_sameKey hmem
  | none =>
      rw [get?_foldl_set_of_forall_ne, get?, empty]
      · rfl
      rintro e he ⟨rfl, rfl⟩
      have hvalue : file.get? e.heading e.key = some e.value :=
        get?_eq_some_iff.mpr (h.mem_entries_iff.mp he)
      exact absurd (hget.symm.trans hvalue) (Option.some_ne_none _).symm

end Lists

/-! ## Every file can be written -/

def sectionsOf (file : VersionFile) : List Section :=
  (file.entries.map Entry.heading).dedup.map fun heading =>
    ⟨heading, (file.entries.filter fun e => e.heading = heading).map fun e => (e.key, e.value)⟩

theorem lists_sectionsOf (file : VersionFile) : Lists (sectionsOf file) file where
  headings_nodup := by
    simpa [sectionsOf, Function.comp_def] using List.nodup_dedup _
  settings_ne_nil := by
    intro s hs
    obtain ⟨heading, hheading, rfl⟩ := List.mem_map.mp hs
    obtain ⟨e, he, rfl⟩ := List.mem_map.mp (List.mem_dedup.mp hheading)
    have hmem : e ∈ file.entries.filter fun f => f.heading = e.heading :=
      List.mem_filter.mpr ⟨he, by simp⟩
    exact List.ne_nil_of_mem (List.mem_map_of_mem hmem)
  keys_nodup := by
    intro s hs
    obtain ⟨heading, _, rfl⟩ := List.mem_map.mp hs
    have hkeys : (file.entries.filter fun e => e.heading = heading).Pairwise
        fun e f => e.key ≠ f.key := by
      refine ((pairwise_not_sameKey file).filter _).imp_of_mem ?_
      intro e f he hf hnot hkey
      have he : e.heading = heading := by simpa using (List.mem_filter.mp he).2
      have hf : f.heading = heading := by simpa using (List.mem_filter.mp hf).2
      exact hnot ⟨he.trans hf.symm, hkey⟩
    rw [List.map_map]
    exact List.pairwise_map.mpr hkeys
  content := by
    intro heading key value
    rw [get?_eq_some_iff]
    constructor
    · rintro ⟨s, hs, rfl, hsetting⟩
      obtain ⟨heading, _, rfl⟩ := List.mem_map.mp hs
      obtain ⟨e, he, heq⟩ := List.mem_map.mp hsetting
      obtain ⟨he, hheading⟩ := List.mem_filter.mp he
      have hheading : e.heading = heading := by simpa using hheading
      cases heq
      exact hheading ▸ he
    · intro hmem
      refine ⟨_, List.mem_map.mpr ⟨heading, ?_, rfl⟩, rfl, ?_⟩
      · exact List.mem_dedup.mpr (List.mem_map.mpr ⟨_, hmem, rfl⟩)
      · exact List.mem_map.mpr ⟨_, List.mem_filter.mpr ⟨hmem, by simp⟩, rfl⟩

/-! ## Written and read -/

theorem unbroken_headingLine {name : String} (h : '\n' ∉ name.toList) :
    '\n' ∉ (headingLine name).toList ∧ (headingLine name).toList.getLast? ≠ some '\r' := by
  rw [toList_headingLine, ← List.cons_append, List.getLast?_concat]
  exact ⟨by simpa using h, by simp⟩

theorem unbroken_settingLine {e : Entry} (h : Writable e) :
    '\n' ∉ (settingLine e.key e.value).toList ∧
      (settingLine e.key e.value).toList.getLast? ≠ some '\r' := by
  have hlast : (settingLine e.key e.value).toList.getLast? = some '"' := by
    rw [toList_settingLine, List.append_cons, getLast?_settingLine]
  rw [hlast, toList_settingLine]
  exact ⟨by simpa using ⟨h.key_feed, h.value_feed⟩, by simp⟩

theorem unbroken_lines {sections : List Section}
    (hheadings : ∀ s ∈ sections, '\n' ∉ s.heading.toList)
    (hentries : ∀ e ∈ sections.flatMap Section.entries, Writable e) :
    ∀ line ∈ sections.flatMap Section.lines,
      '\n' ∉ line.toList ∧ line.toList.getLast? ≠ some '\r' := by
  intro line hline
  obtain ⟨s, hs, hline⟩ := List.mem_flatMap.mp hline
  rw [Section.lines_eq] at hline
  rcases List.mem_cons.mp hline with rfl | hline
  · exact unbroken_headingLine (hheadings s hs)
  · obtain ⟨e, he, rfl⟩ := List.mem_map.mp hline
    exact unbroken_settingLine (hentries e (List.mem_flatMap.mpr ⟨s, hs, he⟩))

/-- A file whose entries can be written can be written in some order, and whatever
the order of its headings and of the keys under them, what is written is read as
the same file. -/
theorem load_write {file : VersionFile} (h : ∀ e ∈ file.entries, Writable e) :
    (∃ sections, Lists sections file) ∧
    ∀ sections, Lists sections file → ∀ surroundings : Surroundings,
      surroundings.file fileName = .ok (write sections).toUTF8 → load surroundings = .ok file := by
  refine ⟨⟨_, lists_sectionsOf file⟩, ?_⟩
  intro sections hlists surroundings hfile
  have hentries : ∀ e ∈ sections.flatMap Section.entries, Writable e := fun e he =>
    h e (hlists.mem_entries_iff.mp he)
  have hheadings : ∀ s ∈ sections, '\n' ∉ s.heading.toList := by
    intro s hs
    obtain ⟨e, he⟩ := List.exists_mem_of_ne_nil _ (hlists.entries_ne_nil hs)
    have hwritable := hentries e (List.mem_flatMap.mpr ⟨s, hs, he⟩)
    exact (Section.mem_entries.mp he).1 ▸ hwritable.heading_feed
  have hlines : Text.lines (write sections) = sections.flatMap Section.lines :=
    lines_joined (unbroken_lines hheadings hentries)
  have hread : ofText (write sections) = file := by
    rw [ofText, hlines, file_foldl_step _ hentries]
    exact hlists.foldl_set
  rw [load_eq_ok hfile, hread]

/-- Headings and keys that look like something else, among them empty ones, with
values that have blanks, quotes or brackets at odd places.  The sections stand in
the opposite order. -/
theorem write_lookalikes :
    let file : VersionFile :=
      ⟨[⟨"", "", "= "⟩, ⟨"", "[k", "a\"b]"⟩, ⟨" x=]\r", "v", ""⟩], by decide⟩
    let sections : List Section :=
      [⟨" x=]\r", [("v", "")]⟩, ⟨"", [("[k", "a\"b]"), ("", "= ")]⟩]
    let surroundings : Surroundings := ⟨.empty, fun _ => .ok (write sections).toUTF8⟩
    (∀ e ∈ file.entries, Writable e) ∧ Lists sections file ∧ load surroundings = .ok file := by
  intro file sections surroundings
  have hempty : Writable ⟨"", "", "= "⟩ :=
    ⟨by decide, by decide, by decide, by simp, by simp, by decide, by decide, by decide⟩
  have hbracket : Writable ⟨"", "[k", "a\"b]"⟩ :=
    ⟨by decide, by decide, by decide, by simp; decide, by simp; decide, by decide, by decide,
      by decide⟩
  have hreturn : Writable ⟨" x=]\r", "v", ""⟩ :=
    ⟨by decide, by decide, by decide, by simp; decide, by simp; decide, by decide, by decide,
      by decide⟩
  have hwritable : ∀ e ∈ file.entries, Writable e := by
    simp only [file, List.forall_mem_cons]
    exact ⟨hempty, hbracket, hreturn, fun _ h => absurd h List.not_mem_nil⟩
  have hlists : Lists sections file := by
    refine ⟨by decide, by decide, by decide, ?_⟩
    intro heading key value
    rw [get?_eq_some_iff]
    simp [sections, file]
    grind
  exact ⟨hwritable, hlists, (load_write hwritable).2 sections hlists surroundings rfl⟩

end ArithTree.VersionFile
