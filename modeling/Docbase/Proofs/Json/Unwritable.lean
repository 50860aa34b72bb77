import Docbase.Json.Encode
import Docbase.Proofs.Outcome

/-!
# Values without a JSON text

A value has no JSON text because of one place in it: there stands something that JSON has no form
for, a whole number of too many digits, or a member whose name is one of these. It may stand as deep
in the value as it likes. The places are written from left to right, a name in front of its value,
and the first of them that is not written says why there is no text.

* `Json.places`: the places of a value in that order.
* `Json.Place.Blocks`: what stands there is not written, and why.
* `Json.encode_error_iff`: **a value has no text because of the first such place**.
* `Json.Unwritable`: there is such a place in the value.
* `Json.encode_isError_iff`: **exactly these values have no JSON text**.
-/

namespace Docbase.Json

/-- The whole number has more digits than are written. -/
def TooLong (i : Int) : Prop := digitLimit < (Nat.toDigits 10 i.natAbs).length

/-- A key without a name in JSON. -/
inductive Nameless : Key → Obstacle → Prop
  | bytes (bs : List UInt8) : Nameless (.bytes bs) .noForm
  | uuid (u : Uuid) : Nameless (.uuid u) .noForm
  | tuple (ks : List Key) : Nameless (.tuple ks) .noForm
  | long {i : Int} : TooLong i → Nameless (.int i) .tooManyDigits

/-- A value that is not written, whatever it is made of. -/
inductive Formless : Value → Obstacle → Prop
  | bytes (bs : List UInt8) : Formless (.bytes bs) .noForm
  | uuid (u : Uuid) : Formless (.uuid u) .noForm
  | node (kind : String) (parts : List (String × Value)) : Formless (.node kind parts) .noForm
  | long {i : Int} : TooLong i → Formless (.int i) .tooManyDigits

theorem wholeChars_error_iff {i : Int} {o : Obstacle} :
    wholeChars i = .error o ↔ TooLong i ∧ o = .tooManyDigits := by
  unfold wholeChars TooLong
  split
  · next hlong => simp [hlong, eq_comm]
  · next hshort => simp [hshort]

theorem memberName_error_iff {k : Key} {o : Obstacle} : memberName k = .error o ↔ Nameless k o := by
  constructor
  · intro h
    cases k with
    | null | bool | float | str => cases h
    | int i =>
      obtain ⟨hlong, rfl⟩ := wholeChars_error_iff.1 h
      exact .long hlong
    | bytes bs => cases h; exact .bytes bs
    | uuid u => cases h; exact .uuid u
    | tuple ks => cases h; exact .tuple ks
  · intro h
    cases h with
    | bytes | uuid | tuple => rfl
    | long hlong => exact wholeChars_error_iff.2 ⟨hlong, rfl⟩

/-! ## The first obstacle -/

/-- A place in a value: the name of a member, or a value that is made of no others. -/
inductive Place
  | name (k : Key)
  | leaf (v : Value)

/-- What stands at the place is not written. -/
inductive Place.Blocks : Place → Obstacle → Prop
  | name {k : Key} {o : Obstacle} : Nameless k o → Blocks (.name k) o
  | leaf {v : Value} {o : Obstacle} : Formless v o → Blocks (.leaf v) o

mutual

/-- The places of a value in the order in which they are written. -/
def places : Value → List Place
  | .list vs | .tuple vs => placesOfItems vs
  | .mapping es => placesOfMembers es
  | v => [.leaf v]

def placesOfItems : List Value → List Place
  | [] => []
  | v :: vs => places v ++ placesOfItems vs

/-- The name of a member stands in front of its value. -/
def placesOfMembers : List (Key × Value) → List Place
  | [] => []
  | (k, v) :: es => .name k :: (places v ++ placesOfMembers es)

end

theorem blocks_leaf_iff {v : Value} {o : Obstacle} :
    FirstFailure Place.Blocks [.leaf v] o ↔ Formless v o := by
  rw [FirstFailure.singleton_iff]
  exact ⟨fun h => by cases h; assumption, .leaf⟩

mutual

/-- What is written of a value fails at the first place that is not written. -/
theorem encodeChars_error_iff : ∀ (v : Value) (o : Obstacle),
    encodeChars v = .error o ↔ FirstFailure Place.Blocks (places v) o
  | .list vs, o => by
    rw [encodeChars, places, ← encodeItems_error_iff vs o]
    exact map_eq_error
  | .tuple vs, o => by
    rw [encodeChars, places, ← encodeItems_error_iff vs o]
    exact map_eq_error
  | .mapping es, o => by
    rw [encodeChars, places, ← encodeMembers_error_iff es o]
    exact map_eq_error
  | .int i, o => by
    rw [encodeChars, places, blocks_leaf_iff, wholeChars_error_iff]
    · exact ⟨fun ⟨hlong, ho⟩ => ho ▸ .long hlong, fun h => by cases h; exact ⟨‹_›, rfl⟩⟩
    all_goals simp
  | .null, o | .bool _, o | .float _, o | .str _, o => by
    rw [encodeChars, places, blocks_leaf_iff]
    · exact iff_of_false (fun h => nomatch h) fun h => nomatch h
    all_goals simp
  | .bytes bs, o => by
    rw [encodeChars, places, blocks_leaf_iff]
    · exact ⟨fun h => by cases h; exact .bytes bs, fun h => by cases h; rfl⟩
    all_goals simp
  | .uuid u, o => by
    rw [encodeChars, places, blocks_leaf_iff]
    · exact ⟨fun h => by cases h; exact .uuid u, fun h => by cases h; rfl⟩
    all_goals simp
  | .node kind parts, o => by
    rw [encodeChars, places, blocks_leaf_iff]
    · exact ⟨fun h => by cases h; exact .node kind parts, fun h => by cases h; rfl⟩
    all_goals simp

theorem encodeItems_error_iff : ∀ (vs : List Value) (o : Obstacle),
    encodeItems vs = .error o ↔ FirstFailure Place.Blocks (placesOfItems vs) o
  | [], o => by simp [encodeItems, placesOfItems, FirstFailure.not_nil]
  | v :: vs, o => by
    rw [encodeItems, placesOfItems]
    exact FirstFailure.both_iff (encodeChars_error_iff v) (encodeItems_error_iff vs)

theorem encodeMembers_error_iff : ∀ (es : List (Key × Value)) (o : Obstacle),
    encodeMembers es = .error o ↔ FirstFailure Place.Blocks (placesOfMembers es) o
  | [], o => by simp [encodeMembers, placesOfMembers, FirstFailure.not_nil]
  | (k, v) :: es, o => by
    have hname : ∀ o, memberName k = .error o ↔ FirstFailure Place.Blocks [.name k] o := by
      intro o
      rw [FirstFailure.singleton_iff, memberName_error_iff]
      exact ⟨.name, fun h => by cases h; assumption⟩
    rw [encodeMembers, placesOfMembers, ← List.singleton_append, FirstFailure.append_iff,
      ← FirstFailure.ok_iff hname, ← hname, bind_eq_error]
    have hbehind : ∀ name : List Char, (do
        let value ← encodeChars v
        let members ← encodeMembers es
        pure ((stringChars name ++ ':' :: ' ' :: value) :: members)) = .error o ↔
          FirstFailure Place.Blocks (places v ++ placesOfMembers es) o := fun name =>
      FirstFailure.both_iff (encodeChars_error_iff v) (encodeMembers_error_iff es)
    simp only [hbehind, exists_and_right]

end

/-- **A value has no JSON text because of the first place in it that is not written.** -/
theorem encode_error_iff {v : Value} {o : Obstacle} :
    encode v = .error o ↔ FirstFailure Place.Blocks (places v) o := by
  rw [← encodeChars_error_iff, encode]
  cases encodeChars v <;> simp [Except.map]

/-! ## Values in which something is not written -/

/-- Somewhere in the value something is not written. -/
inductive Unwritable : Value → Prop
  | leaf {v : Value} {o : Obstacle} : Formless v o → Unwritable v
  | listed {vs : List Value} {v : Value} : v ∈ vs → Unwritable v → Unwritable (.list vs)
  | tupled {vs : List Value} {v : Value} : v ∈ vs → Unwritable v → Unwritable (.tuple vs)
  | member {es : Entries} {k : Key} {v : Value} :
      (k, v) ∈ es → Unwritable v → Unwritable (.mapping es)
  | name {es : Entries} {k : Key} {v : Value} {o : Obstacle} :
      (k, v) ∈ es → Nameless k o → Unwritable (.mapping es)

variable {k : Key} {v : Value} {vs : List Value} {es : Entries}

/-- Some place is not written. -/
def Blocked (ps : List Place) : Prop := ∃ p ∈ ps, ∃ o, p.Blocks o

theorem blocked_append {ps qs : List Place} : Blocked (ps ++ qs) ↔ Blocked ps ∨ Blocked qs := by
  simp only [Blocked, List.mem_append, or_and_right, exists_or]

theorem blocked_items (hv : v ∈ vs) (h : Blocked (places v)) : Blocked (placesOfItems vs) := by
  induction vs with
  | nil => cases hv
  | cons w vs ih =>
    rw [placesOfItems, blocked_append]
    rcases List.mem_cons.1 hv with rfl | hv
    · exact .inl h
    · exact .inr (ih hv)

theorem blocked_members (he : (k, v) ∈ es) (h : Blocked (.name k :: places v)) :
    Blocked (placesOfMembers es) := by
  induction es with
  | nil => cases he
  | cons e es ih =>
    rw [placesOfMembers, ← List.cons_append, blocked_append]
    rcases List.mem_cons.1 he with rfl | he
    · exact .inl h
    · exact .inr (ih he)

theorem Unwritable.blocked (h : Unwritable v) : Blocked (places v) := by
  induction h with
  | leaf h =>
    refine ⟨.leaf _, ?_, _, .leaf h⟩
    cases h <;> simp [places]
  | listed hv _ ih => rw [places]; exact blocked_items hv ih
  | tupled hv _ ih => rw [places]; exact blocked_items hv ih
  | @member es k v he _ ih =>
    obtain ⟨p, hp, hblocks⟩ := ih
    rw [places]
    exact blocked_members he ⟨p, List.mem_cons_of_mem _ hp, hblocks⟩
  | name he hname =>
    rw [places]
    exact blocked_members he ⟨_, List.mem_cons_self, _, .name hname⟩

mutual

/-- A place that is not written is somewhere in the value. -/
theorem unwritable_of_blocked : ∀ v : Value, Blocked (places v) → Unwritable v
  | .list vs, h => by
    rw [places] at h
    obtain ⟨v, hv, hbad⟩ := unwritable_item vs h
    exact .listed hv hbad
  | .tuple vs, h => by
    rw [places] at h
    obtain ⟨v, hv, hbad⟩ := unwritable_item vs h
    exact .tupled hv hbad
  | .mapping es, h => by
    rw [places] at h
    obtain ⟨⟨k, v⟩, he, ⟨o, hname⟩ | hbad⟩ := unwritable_member es h
    · exact .name he hname
    · exact .member he hbad
  | .null, h | .bool _, h | .int _, h | .float _, h | .str _, h | .bytes _, h | .uuid _, h
  | .node .., h => by
    obtain ⟨p, hp, o, hblocks⟩ := h
    simp only [places, List.mem_singleton] at hp
    subst hp
    cases hblocks with
    | leaf hleaf => exact .leaf hleaf

theorem unwritable_item : ∀ vs : List Value, Blocked (placesOfItems vs) → ∃ v ∈ vs, Unwritable v
  | [], h => by
    obtain ⟨p, hp, -⟩ := h
    simp [placesOfItems] at hp
  | v :: vs, h => by
    rw [placesOfItems, blocked_append] at h
    rcases h with h | h
    · exact ⟨v, List.mem_cons_self, unwritable_of_blocked v h⟩
    · obtain ⟨w, hw, hbad⟩ := unwritable_item vs h
      exact ⟨w, List.mem_cons_of_mem v hw, hbad⟩

theorem unwritable_member : ∀ es : List (Key × Value), Blocked (placesOfMembers es) →
    ∃ e ∈ es, (∃ o, Nameless e.1 o) ∨ Unwritable e.2
  | [], h => by
    obtain ⟨p, hp, -⟩ := h
    simp [placesOfMembers] at hp
  | (k, v) :: es, h => by
    rw [placesOfMembers, ← List.singleton_append, blocked_append, blocked_append] at h
    rcases h with ⟨p, hp, o, hblocks⟩ | h | h
    · cases List.mem_singleton.1 hp
      cases hblocks with
      | name hname => exact ⟨(k, v), List.mem_cons_self, .inl ⟨o, hname⟩⟩
    · exact ⟨(k, v), List.mem_cons_self, .inr (unwritable_of_blocked v h)⟩
    · obtain ⟨e, he, hbad⟩ := unwritable_member es h
      exact ⟨e, List.mem_cons_of_mem _ he, hbad⟩

end

/-- **A value has no JSON text exactly if something in it is not written.** -/
theorem encode_isError_iff : (∃ o, encode v = .error o) ↔ Unwritable v := by
  simp only [encode_error_iff, FirstFailure.exists_iff]
  exact ⟨unwritable_of_blocked v, Unwritable.blocked⟩

end Docbase.Json
