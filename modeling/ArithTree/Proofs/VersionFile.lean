/-
# What a version file says

A key under a heading has the value of the last line that sets it there
(`load_settled`).  `IsHeading` and `IsSetting` say what a line without blanks at
its ends may be, in terms of its characters; `SetsAt` says that a line sets a key
under the nearest heading above it.

The file is read line by line.  What has been read is described by what stands
in force behind the lines so far: `heading_of_iff` for the heading, and
`get?_of_iff` for the keys.  Both follow the lines from the front, one line
added at the end.
-/
import ArithTree.Proofs.Text
import ArithTree.VersionFile
import Mathlib.Data.List.Induction

namespace ArithTree.VersionFile

/-! ## Lines by their characters -/

/-- The line begins a heading of this name. -/
def IsHeading (line : List Char) (name : String) : Prop :=
  line = '[' :: (name.toList ++ [']'])

/-- The line stands in brackets, whatever else it may look like. -/
def InBrackets (line : List Char) : Prop :=
  line.head? = some '[' ∧ line.getLast? = some ']'

/-- The line sets a key to a value: it is neither empty nor a comment nor in
brackets, and at its first `=` it falls into the key and the value, the one with
blanks at its ends and the other with quotes at its ends between blanks. -/
structure IsSetting (line : List Char) (key value : String) : Prop where
  ne_nil : line ≠ []
  not_comment : line.head? ≠ some ';' ∧ line.head? ≠ some '#'
  not_inBrackets : ¬ InBrackets line
  parts : ∃ before behind inner, line = before ++ '=' :: behind ∧ '=' ∉ before ∧
    Text.IsCore Text.isBlank before key.toList ∧ Text.IsCore Text.isBlank behind inner ∧
    Text.IsCore (· == '"') inner value.toList

theorem bracketed?_eq_some_iff {line name : List Char} :
    bracketed? line = some name ↔ line = '[' :: (name ++ [']']) := by
  constructor
  · intro h
    unfold bracketed? at h
    split at h
    · next rest =>
        split at h
        · next hlast =>
            cases h
            obtain ⟨front, rfl⟩ := List.getLast?_eq_some_iff.mp hlast
            rw [List.dropLast_concat]
        · exact nomatch h
    · exact nomatch h
  · rintro rfl
    simp [bracketed?]

/-- What stands in brackets has a name between them, so that the name can be cut
out at the two ends. -/
theorem inBrackets_iff {line : List Char} :
    InBrackets line ↔ ∃ name, line = '[' :: (name ++ [']']) := by
  constructor
  · rintro ⟨hhead, hlast⟩
    obtain ⟨rest, rfl⟩ := List.head?_eq_some_iff.mp hhead
    cases rest with
    | nil => exact absurd hlast (by decide)
    | cons c rest =>
        rw [List.getLast?_cons_cons] at hlast
        obtain ⟨name, hname⟩ := List.getLast?_eq_some_iff.mp hlast
        exact ⟨name, by rw [hname]⟩
  · rintro ⟨name, rfl⟩
    exact ⟨rfl, by rw [← List.cons_append, List.getLast?_concat]⟩

theorem bracketed?_eq_none_iff {line : List Char} :
    bracketed? line = none ↔ ¬ InBrackets line := by
  rw [inBrackets_iff, Option.eq_none_iff_forall_ne_some, not_exists]
  exact forall_congr' fun name => not_congr bracketed?_eq_some_iff

theorem all_head?_iff {line : List Char} :
    line.head?.all (fun c => c = ';' ∨ c = '#') = true ↔
      line = [] ∨ line.head? = some ';' ∨ line.head? = some '#' := by
  cases line <;> simp

theorem unquoted_eq_iff {value core : List Char} : unquoted value = core ↔
    ∃ inner, Text.IsCore Text.isBlank value inner ∧ Text.IsCore (· == '"') inner core := by
  constructor
  · rintro rfl
    exact ⟨_, Text.isCore_strip _ _, Text.isCore_strip _ _⟩
  · rintro ⟨inner, hinner, hcore⟩
    rw [unquoted, hinner.strip_eq, hcore.strip_eq]

theorem ofTrimmed_eq_heading_iff {line : List Char} {name : String} :
    Line.ofTrimmed line = .heading name ↔ IsHeading line name := by
  constructor
  · intro h
    unfold Line.ofTrimmed at h
    split at h
    · exact nomatch h
    · split at h
      · next hname => cases h; simpa [IsHeading] using bracketed?_eq_some_iff.mp hname
      · exact nomatch h
      · exact nomatch h
  · rintro rfl
    have hname := bracketed?_eq_some_iff.mpr (rfl : '[' :: (name.toList ++ [']']) = _)
    simp [Line.ofTrimmed, hname]

theorem ofTrimmed_eq_setting_iff {line : List Char} {key value : String} :
    Line.ofTrimmed line = .setting key value ↔ IsSetting line key value := by
  constructor
  · intro h
    unfold Line.ofTrimmed at h
    split at h
    · exact nomatch h
    · next hcomment =>
      obtain ⟨hne, hcomment⟩ := not_or.mp (mt all_head?_iff.mpr hcomment)
      split at h
      · exact nomatch h
      · next before behind hname hcut =>
          cases h
          obtain ⟨hline, hbefore⟩ := Text.cutAt_eq_some.mp hcut
          obtain ⟨inner, hinner, hvalue⟩ := unquoted_eq_iff.mp (rfl : unquoted behind = _)
          refine ⟨hne, not_or.mp hcomment, bracketed?_eq_none_iff.mp hname, before, behind, inner,
            hline, hbefore, ?_, hinner, ?_⟩
          · simpa using Text.isCore_strip Text.isBlank before
          · simpa using hvalue
      · exact nomatch h
  · rintro ⟨hne, hcomment, hbrackets, before, behind, inner, hline, hbefore, hkey, hinner, hvalue⟩
    have hhead : ¬ line.head?.all (fun c => c = ';' ∨ c = '#') = true :=
      mt all_head?_iff.mp (not_or.mpr ⟨hne, not_or.mpr hcomment⟩)
    have hcut := Text.cutAt_eq_some.mpr ⟨hline, hbefore⟩
    rw [Line.ofTrimmed, if_neg hhead, bracketed?_eq_none_iff.mpr hbrackets, hcut]
    simp only [hkey.strip_eq, unquoted_eq_iff.mpr ⟨inner, hinner, hvalue⟩, String.ofList_toList]

/-! ## Lines by their places -/

/-- The nearest heading before the place has this name. -/
def HeadedAt (lines : List (List Char)) (i : Nat) (name : String) : Prop :=
  ∃ h < i, (∃ line ∈ lines[h]?, IsHeading line name) ∧
    ∀ k, h < k → k < i → ∀ line ∈ lines[k]?, ∀ other, ¬ IsHeading line other

/-- The line at the place sets a key under a heading to a value. -/
def SetsAt (lines : List (List Char)) (i : Nat) (heading key value : String) : Prop :=
  (∃ line ∈ lines[i]?, IsSetting line key value) ∧ HeadedAt lines i heading

/-- The line at the place is the last one that sets the key under the heading. -/
def SettlesAt (lines : List (List Char)) (i : Nat) (heading key value : String) : Prop :=
  SetsAt lines i heading key value ∧ ∀ j > i, ∀ other, ¬ SetsAt lines j heading key other

section Snoc
variable {lines : List (List Char)} {line : List Char} {i : Nat} {heading key value : String}

theorem SetsAt.lt_length (h : SetsAt lines i heading key value) : i < lines.length := by
  obtain ⟨⟨line, hline, _⟩, _⟩ := h
  exact (List.getElem?_eq_some_iff.mp hline).1

theorem not_headedAt_zero : ¬ HeadedAt lines 0 heading := by
  rintro ⟨h, hh, _⟩
  exact absurd hh (Nat.not_lt_zero h)

theorem headedAt_snoc (hi : i ≤ lines.length) :
    HeadedAt (lines ++ [line]) i heading ↔ HeadedAt lines i heading := by
  have hget : ∀ k < i, (lines ++ [line])[k]? = lines[k]? := fun k hk =>
    List.getElem?_append_left (Nat.lt_of_lt_of_le hk hi)
  refine exists_congr fun h => and_congr_right fun hh => ?_
  rw [hget h hh]
  refine and_congr_right fun _ => forall_congr' fun k => forall_congr' fun _ => ?_
  exact forall_congr' fun hk => by rw [hget k hk]

/-- Behind the last line the nearest heading is that line itself, or the one that
was the nearest before it. -/
theorem headedAt_succ_length :
    HeadedAt (lines ++ [line]) (lines.length + 1) heading ↔ IsHeading line heading ∨
      (∀ other, ¬ IsHeading line other) ∧ HeadedAt lines lines.length heading := by
  have hlast : (lines ++ [line])[lines.length]? = some line := List.getElem?_concat_length
  constructor
  · rintro ⟨h, hh, hheading, hbetween⟩
    rcases Nat.lt_succ_iff_lt_or_eq.mp hh with hlt | rfl
    · refine Or.inr ⟨hbetween _ hlt (Nat.lt_succ_self _) line hlast, ?_⟩
      refine (headedAt_snoc le_rfl).mp ⟨h, hlt, hheading, ?_⟩
      intro k hk hki
      exact hbetween k hk (Nat.lt_succ_of_lt hki)
    · obtain ⟨_, hline, hheading⟩ := hheading
      cases hlast.symm.trans hline
      exact Or.inl hheading
  · rintro (hheading | ⟨hother, hbefore⟩)
    · refine ⟨lines.length, Nat.lt_succ_self _, ⟨line, hlast, hheading⟩, ?_⟩
      intro k hk hki
      omega
    · have hbefore : HeadedAt (lines ++ [line]) lines.length heading :=
        (headedAt_snoc le_rfl).mpr hbefore
      obtain ⟨h, hh, hheading, hbetween⟩ := hbefore
      refine ⟨h, Nat.lt_succ_of_lt hh, hheading, ?_⟩
      intro k hk hki found hfound
      rcases Nat.lt_succ_iff_lt_or_eq.mp hki with hlt | rfl
      · exact hbetween k hk hlt found hfound
      · cases hlast.symm.trans hfound
        exact hother

theorem setsAt_snoc : SetsAt (lines ++ [line]) i heading key value ↔
    SetsAt lines i heading key value ∨
      i = lines.length ∧ IsSetting line key value ∧ HeadedAt lines lines.length heading := by
  have hlast : (lines ++ [line])[lines.length]? = some line := List.getElem?_concat_length
  constructor
  · intro hsets
    have hle : i ≤ lines.length := by simpa [Nat.lt_succ_iff] using hsets.lt_length
    obtain ⟨⟨found, hfound, hsetting⟩, hheaded⟩ := hsets
    have hheaded := (headedAt_snoc hle).mp hheaded
    rcases Nat.lt_or_eq_of_le hle with hlt | rfl
    · rw [List.getElem?_append_left hlt] at hfound
      exact Or.inl ⟨⟨found, hfound, hsetting⟩, hheaded⟩
    · cases hlast.symm.trans hfound
      exact Or.inr ⟨rfl, hsetting, hheaded⟩
  · rintro (hsets | ⟨rfl, hsetting, hheaded⟩)
    · have hlt := hsets.lt_length
      obtain ⟨⟨found, hfound, hsetting⟩, hheaded⟩ := hsets
      refine ⟨⟨found, ?_, hsetting⟩, (headedAt_snoc hlt.le).mpr hheaded⟩
      rwa [List.getElem?_append_left hlt]
    · exact ⟨⟨line, hlast, hsetting⟩, (headedAt_snoc le_rfl).mpr hheaded⟩

/-- What settles a key behind one more line: that line, if it sets the key, or
else what settled it before. -/
theorem exists_settlesAt_snoc :
    (∃ i, SettlesAt (lines ++ [line]) i heading key value) ↔
      (IsSetting line key value ∧ HeadedAt lines lines.length heading) ∨
      (∀ other, ¬ (IsSetting line key other ∧ HeadedAt lines lines.length heading)) ∧
        ∃ i, SettlesAt lines i heading key value := by
  constructor
  · rintro ⟨i, hsets, hlater⟩
    rcases setsAt_snoc.mp hsets with hbefore | ⟨_, hlast⟩
    · refine Or.inr ⟨?_, i, hbefore, ?_⟩
      · intro other hlast
        exact hlater _ hbefore.lt_length other (setsAt_snoc.mpr (Or.inr ⟨rfl, hlast⟩))
      · intro j hj other hsets
        exact hlater j hj other (setsAt_snoc.mpr (Or.inl hsets))
    · exact Or.inl hlast
  · rintro (hlast | ⟨hnot, i, hsets, hlater⟩)
    · refine ⟨lines.length, setsAt_snoc.mpr (Or.inr ⟨rfl, hlast⟩), ?_⟩
      intro j hj other hsets
      rcases setsAt_snoc.mp hsets with hbefore | ⟨rfl, _⟩
      · exact absurd hbefore.lt_length (Nat.not_lt.mpr hj.le)
      · exact absurd hj (Nat.lt_irrefl _)
    · refine ⟨i, setsAt_snoc.mpr (Or.inl hsets), ?_⟩
      intro j hj other hsets
      rcases setsAt_snoc.mp hsets with hbefore | ⟨_, hlast⟩
      · exact hlater j hj other hbefore
      · exact hnot other hlast

theorem exists_settlesAt (h : SetsAt lines i heading key value) :
    ∃ last, ∃ j, SettlesAt lines j heading key last := by
  induction lines using List.reverseRecOn generalizing i value with
  | nil => exact absurd h.lt_length (Nat.not_lt_zero i)
  | append_singleton lines line ih =>
      by_cases hline : ∃ other, IsSetting line key other ∧ HeadedAt lines lines.length heading
      · obtain ⟨other, hother⟩ := hline
        exact ⟨other, exists_settlesAt_snoc.mpr (Or.inl hother)⟩
      · rcases setsAt_snoc.mp h with hbefore | ⟨_, hlast⟩
        · obtain ⟨last, hlast⟩ := ih hbefore
          exact ⟨last, exists_settlesAt_snoc.mpr (Or.inr ⟨not_exists.mp hline, hlast⟩)⟩
        · exact absurd ⟨value, hlast⟩ hline

end Snoc

/-! ## Reading line by line -/

def trimmed (line : String) : List Char :=
  (Text.trim line).toList

theorem of_eq_ofTrimmed (line : String) : Line.of line = .ofTrimmed (trimmed line) := by
  rw [Line.of, trimmed, Text.trim, String.toList_ofList]

section Step
variable {r : Reading} {line : String} {heading key value : String}

theorem heading_step_iff : (r.step line).heading = some heading ↔
    IsHeading (trimmed line) heading ∨
      (∀ other, ¬ IsHeading (trimmed line) other) ∧ r.heading = some heading := by
  simp only [← ofTrimmed_eq_heading_iff, ← of_eq_ofTrimmed, Reading.step]
  cases Line.of line with
  | nothing => simp
  | heading name => simp
  | setting key value => cases h : r.heading <;> simp [h]

theorem get?_step_iff : (r.step line).file.get? heading key = some value ↔
    (IsSetting (trimmed line) key value ∧ r.heading = some heading) ∨
      (∀ other, ¬ (IsSetting (trimmed line) key other ∧ r.heading = some heading)) ∧
        r.file.get? heading key = some value := by
  simp only [← ofTrimmed_eq_setting_iff, ← of_eq_ofTrimmed, Reading.step]
  cases Line.of line with
  | nothing => simp
  | heading name => simp
  | setting key' value' =>
      cases r.heading with
      | none => simp
      | some heading' =>
          simp only [get?_set]
          by_cases h : heading' = heading ∧ key' = key
          · obtain ⟨rfl, rfl⟩ := h
            simp
          · rw [if_neg h]
            grind

end Step

def Reading.of (lines : List String) : Reading :=
  lines.foldl Reading.step .initial

theorem Reading.of_snoc (lines : List String) (line : String) :
    Reading.of (lines ++ [line]) = (Reading.of lines).step line := by
  rw [Reading.of, List.foldl_append, List.foldl_cons, List.foldl_nil, Reading.of]

theorem heading_of_iff {lines : List String} {heading : String} :
    (Reading.of lines).heading = some heading ↔
      HeadedAt (lines.map trimmed) lines.length heading := by
  induction lines using List.reverseRecOn with
  | nil => exact iff_of_false (by simp [Reading.of, Reading.initial]) not_headedAt_zero
  | append_singleton lines line ih =>
      have hlength : (lines.map trimmed).length = lines.length := List.length_map _
      rw [Reading.of_snoc, heading_step_iff, ih, List.map_append, List.map_singleton,
        List.length_append, List.length_singleton, ← hlength, headedAt_succ_length]

theorem get?_of_iff {lines : List String} {heading key value : String} :
    (Reading.of lines).file.get? heading key = some value ↔
      ∃ i, SettlesAt (lines.map trimmed) i heading key value := by
  induction lines using List.reverseRecOn generalizing value with
  | nil =>
      refine iff_of_false (by simp [Reading.of, Reading.initial, get?, empty]) ?_
      rintro ⟨i, hsets, _⟩
      exact absurd hsets.lt_length (Nat.not_lt_zero i)
  | append_singleton lines line ih =>
      have hlength : (lines.map trimmed).length = lines.length := List.length_map _
      rw [Reading.of_snoc, get?_step_iff, ih, heading_of_iff, List.map_append, List.map_singleton,
        exists_settlesAt_snoc, hlength]

theorem get?_of_eq_none_iff {lines : List String} {heading key : String} :
    (Reading.of lines).file.get? heading key = none ↔
      ∀ i value, ¬ SetsAt (lines.map trimmed) i heading key value := by
  rw [Option.eq_none_iff_forall_ne_some]
  constructor
  · intro hnone i value hsets
    obtain ⟨last, hlast⟩ := exists_settlesAt hsets
    exact hnone last (get?_of_iff.mpr hlast)
  · intro hnot value hvalue
    obtain ⟨i, hsets, _⟩ := get?_of_iff.mp hvalue
    exact hnot i value hsets

theorem Reading.of_append {before behind : List String}
    (h : ∀ line ∈ before, ∀ name, ¬ IsHeading (trimmed line) name) :
    Reading.of (before ++ behind) = Reading.of behind := by
  have hbefore : Reading.of before = .initial := by
    induction before using List.reverseRecOn with
    | nil => rfl
    | append_singleton before line ih =>
        have hline : ∀ name, Line.of line ≠ .heading name := by
          intro name
          rw [of_eq_ofTrimmed, Ne, ofTrimmed_eq_heading_iff]
          exact h line (by simp) name
        rw [Reading.of_snoc, ih fun line hline => h line (by simp [hline]), Reading.step]
        cases heq : Line.of line with
        | nothing => rfl
        | heading name => exact absurd heq (hline name)
        | setting key value => rfl
  rw [Reading.of, List.foldl_append, ← Reading.of, hbefore, Reading.of]

/-! ## Whole files -/

/-- The bytes of the text from one place up to another are a text of their own. -/
def HasSlice (text : String) (first last : Nat) (slice : String) : Prop :=
  ∃ before behind, text = before ++ slice ++ behind ∧
    before.utf8ByteSize = first ∧ (before ++ slice).utf8ByteSize = last

/-- The name of a heading is what is left without the first and the last byte. -/
theorem hasSlice_of_isHeading {line name : String} (h : IsHeading line.toList name) :
    HasSlice line 1 (line.utf8ByteSize - 1) name := by
  have hline : line = "[" ++ name ++ "]" := by
    rw [← String.toList_inj, h]
    simp
  refine ⟨"[", "]", hline, rfl, ?_⟩
  rw [hline, String.utf8ByteSize_append (s := "[" ++ name)]
  rfl

theorem load_eq_ok {surroundings : Surroundings} {text : String}
    (h : surroundings.file fileName = .ok text.toUTF8) :
    load surroundings = .ok (ofText text) := by
  have htext : surroundings.fileText fileName = .ok text := by
    rw [Surroundings.fileText, h]
    exact decodeText_toUTF8 text
  rw [load, htext]
  rfl

/-- Every text is read.  A key under a heading has the value of the last line that
sets it there, and no other keys are there: what stands above the first heading
counts for nothing, and a heading that comes back goes on where it was left.  Of a
line in brackets the name can be cut out by its bytes. -/
theorem load_settled {surroundings : Surroundings} {text : String}
    (hfile : surroundings.file fileName = .ok text.toUTF8) :
    let lines := (Text.lines text).map trimmed
    ∃ file, load surroundings = .ok file ∧
      (∀ heading key value, file.get? heading key = some value ↔
        ∃ i, SettlesAt lines i heading key value) ∧
      (∀ heading key, file.get? heading key = none ↔
        ∀ i value, ¬ SetsAt lines i heading key value) ∧
      (∀ before text', Text.lines text = before ++ Text.lines text' →
        (∀ line ∈ before, ∀ name, ¬ IsHeading (trimmed line) name) → file = ofText text') ∧
      ∀ line ∈ Text.lines text, InBrackets (trimmed line) → ∃ name,
        IsHeading (trimmed line) name ∧
        HasSlice (Text.trim line) 1 ((Text.trim line).utf8ByteSize - 1) name := by
  intro lines
  refine ⟨ofText text, load_eq_ok hfile, fun _ _ _ => get?_of_iff,
    fun _ _ => get?_of_eq_none_iff, ?_, ?_⟩
  · intro before text' hlines hbefore
    have hread : Reading.of (Text.lines text) = Reading.of (Text.lines text') := by
      rw [hlines, Reading.of_append hbefore]
    exact congrArg Reading.file hread
  · intro line _ hbrackets
    obtain ⟨name, hname⟩ := inBrackets_iff.mp hbrackets
    have hheading : IsHeading (trimmed line) (String.ofList name) := by
      rw [IsHeading, String.toList_ofList, hname]
    exact ⟨_, hheading, hasSlice_of_isHeading hheading⟩

/-- A heading that holds an `=` and comes back, a key that begins with a bracket, a
comment that looks like a heading, and a key that is set above all headings. -/
theorem settled_under_returning_heading :
    let text := "k=0\n[A=]\r\n [k = \"x]\" \nk=1\n;[B]\n[B]\nk=2\n[A=]\u3000\nk == \"\"3\"\t"
    let surroundings : Surroundings :=
      ⟨.empty, fun path => if path = fileName then .ok text.toUTF8 else .error .missing⟩
    let lines := (Text.lines text).map trimmed
    surroundings.file fileName = .ok text.toUTF8 ∧
    (∃ i, SettlesAt lines i "A=" "[k" "x]") ∧ (∃ i, SettlesAt lines i "A=" "k" "= \"\"3") ∧
    (∃ i, SettlesAt lines i "B" "k" "2") ∧ ∀ i value, ¬ SetsAt lines i "" "k" value := by
  intro text surroundings lines
  have hfile : surroundings.file fileName = .ok text.toUTF8 := rfl
  obtain ⟨file, hload, hsome, hnone, _⟩ := load_settled hfile
  obtain rfl : file = ofText text := Except.ok.inj (hload.symm.trans (load_eq_ok hfile))
  have hvalues : (ofText text).get? "A=" "[k" = some "x]" ∧
      (ofText text).get? "A=" "k" = some "= \"\"3" ∧ (ofText text).get? "B" "k" = some "2" ∧
      (ofText text).get? "" "k" = none := by
    decide +kernel
  obtain ⟨hbracket, hreturning, hother, habove⟩ := hvalues
  exact ⟨hfile, (hsome _ _ _).mp hbracket, (hsome _ _ _).mp hreturning, (hsome _ _ _).mp hother,
    (hnone _ _).mp habove⟩

end ArithTree.VersionFile
