/-
# Entries of a version file

An entry gives a key under a heading a value.  Entries are kept in order, by
heading and then by key, with one entry for each key; `put` keeps them so
(`pairwise_put`) and changes one key (`find?_put`).
-/

namespace ArithTree.VersionFile

/-- The value of a key under a heading. -/
structure Entry where
  heading : String
  key : String
  value : String
  deriving DecidableEq, Repr

/-! ## The order -/

def Entry.sameKey (e f : Entry) : Prop :=
  e.heading = f.heading ∧ e.key = f.key

instance (e f : Entry) : Decidable (e.sameKey f) :=
  inferInstanceAs (Decidable (_ ∧ _))

/-- The order of entries: by heading, then by key. -/
def Entry.before (e f : Entry) : Prop :=
  e.heading < f.heading ∨ (e.heading = f.heading ∧ e.key < f.key)

instance (e f : Entry) : Decidable (e.before f) :=
  inferInstanceAs (Decidable (_ ∨ _))

theorem lt_or_eq_or_gt (a b : String) : a < b ∨ a = b ∨ b < a := by
  by_cases h : a < b
  · exact .inl h
  · by_cases h' : b < a
    · exact .inr (.inr h')
    · exact .inr (.inl (String.le_antisymm (String.not_lt.1 h') (String.not_lt.1 h)))

theorem Entry.before_trans {e f g : Entry} (h : e.before f) (h' : f.before g) :
    e.before g := by
  rcases h with h | ⟨h, hk⟩ <;> rcases h' with h' | ⟨h', hk'⟩
  · exact .inl (String.lt_trans h h')
  · exact .inl (h' ▸ h)
  · exact .inl (h ▸ h')
  · exact .inr ⟨h.trans h', String.lt_trans hk hk'⟩

theorem Entry.before_of_not_before {e f : Entry} (hk : ¬e.sameKey f) (hb : ¬e.before f) :
    f.before e := by
  rcases lt_or_eq_or_gt e.heading f.heading with h | h | h
  · exact absurd (.inl h) hb
  · rcases lt_or_eq_or_gt e.key f.key with h' | h' | h'
    · exact absurd (.inr ⟨h, h'⟩) hb
    · exact absurd ⟨h, h'⟩ hk
    · exact .inr ⟨h.symm, h'⟩
  · exact .inl h

/-! ## Putting an entry among others -/

/-- Puts an entry among others, in place of the one about the same key. -/
def put (e : Entry) : List Entry → List Entry
  | [] => [e]
  | f :: rest =>
    if e.sameKey f then e :: rest
    else if e.before f then e :: f :: rest
    else f :: put e rest

theorem mem_put {e g : Entry} {es : List Entry} (h : g ∈ put e es) : g = e ∨ g ∈ es := by
  induction es with
  | nil => simpa [put] using h
  | cons f rest ih =>
    unfold put at h
    split at h
    · exact (List.mem_cons.1 h).imp_right (.tail _)
    · split at h
      · exact List.mem_cons.1 h
      · rcases List.mem_cons.1 h with h | h
        · exact .inr (h ▸ .head _)
        · exact (ih h).imp_right (.tail _)

/-- Entries in order, one for each key, stay so. -/
theorem pairwise_put (e : Entry) {es : List Entry} (h : es.Pairwise Entry.before) :
    (put e es).Pairwise Entry.before := by
  induction es with
  | nil => simp [put]
  | cons f rest ih =>
    obtain ⟨hf, hrest⟩ := List.pairwise_cons.1 h
    unfold put
    split
    · rename_i same
      refine List.pairwise_cons.2 ⟨fun g hg => ?_, hrest⟩
      simpa [Entry.before, same.1, same.2] using hf g hg
    · rename_i differ
      split
      · rename_i less
        refine List.pairwise_cons.2 ⟨fun g hg => ?_, h⟩
        rcases List.mem_cons.1 hg with rfl | hg
        · exact less
        · exact Entry.before_trans less (hf g hg)
      · rename_i notLess
        refine List.pairwise_cons.2 ⟨fun g hg => ?_, ih hrest⟩
        rcases mem_put hg with rfl | hg
        · exact Entry.before_of_not_before differ notLess
        · exact hf g hg

/-- The entry that was put is found under its key, and every other key has what
it had. -/
theorem find?_put (e : Entry) (es : List Entry) (heading key : String) :
    (put e es).find? (fun f => f.heading = heading ∧ f.key = key) =
      if e.heading = heading ∧ e.key = key then some e
      else es.find? fun f => f.heading = heading ∧ f.key = key := by
  induction es with
  | nil => grind [put]
  | cons f rest ih =>
    unfold put
    simp only [Entry.sameKey]
    grind

end ArithTree.VersionFile
