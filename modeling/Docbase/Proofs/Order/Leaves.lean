import Docbase.Proofs.Field.Faults
import Docbase.Proofs.Sql.Fragments
import Docbase.Proofs.Sql.Identifier

/-!
# The leaves of an order

An order is a tree, but only its leaves count: from left to right they are the sort keys of the
order, the first one first.

* `Order.leaves`: the leaves of the tree.
* `hasKeys`, `sortKeys_error_iff`: **each leaf gives its sort key, or the first leaf with a fault
  says why there are none**.
* `Order.ranks`, `ranksBy`: how a tree compares two rows, and how a list of sort keys does.
* `ranks_eq`: **both compare alike**.
* `order_flattened`: what the sort keys of an order are, what they mean, and that their text says
  so.
-/

namespace Docbase

open Sql

namespace Order

variable {r : Resolver} {o : Order} {c : Cause}

/-- The leaves of an order, from left to right. -/
def leaves : Order → List Order
  | both a b => a.leaves ++ b.leaves
  | o => [o]

/-- The sort key of a leaf: what it sorts by, in its direction. -/
inductive HasKey (r : Resolver) : Order → SortKey → Prop
  | id (d : Direction) : HasKey r (.id d) ⟨.id, d⟩
  | field {path : String} {e : Operand} (d : Direction) :
      r.operand path = .ok e → HasKey r (.field path d) ⟨e, d⟩

/-- What is wrong with a leaf, the category under which it is reported, and the cause. -/
inductive Fault (r : Resolver) : Order → Category → Cause → Prop
  | unknown (typeName : String) :
      Fault r (.unknown typeName) .unsupportedOrder (.unknownOrder typeName)
  | path {path : String} {k : Category} {c : Cause} (d : Direction) :
      r.PathFault path k c → Fault r (.field path d) k c

/-- The fault of a leaf, with the category of its cause. -/
def Fails (r : Resolver) (o : Order) (c : Cause) : Prop := Fault r o c.report.category c

/-- Every leaf has a meaning, and so has its path. -/
structure WellFormed (r : Resolver) (o : Order) : Prop where
  known : ∀ name, .unknown name ∉ o.leaves
  paths : ∀ path d, .field path d ∈ o.leaves → r.WellFormed path

theorem fails_iff : o.Fails r c ↔ ∃ k, Fault r o k c := by
  constructor
  · exact fun h => ⟨_, h⟩
  · rintro ⟨k, h⟩
    have hk : c.report.category = k := by
      cases h with
      | unknown => rfl
      | path _ hpath => exact hpath.category
    rwa [Fails, hk]

theorem id_not_fails (d : Direction) : ¬ (id d).Fails r c := by
  rw [fails_iff]
  rintro ⟨k, h⟩
  cases h

theorem field_fails_iff {path : String} {d : Direction} :
    (field path d).Fails r c ↔ r.operand path = .error c := by
  rw [fails_iff, Resolver.operand_error_iff]
  constructor
  · rintro ⟨k, h⟩
    cases h with
    | path _ hpath => exact ⟨k, hpath⟩
  · rintro ⟨k, h⟩
    exact ⟨k, .path d h⟩

theorem unknown_fails_iff {name : String} :
    (unknown name).Fails r c ↔ .unknownOrder name = c := by
  rw [fails_iff]
  constructor
  · rintro ⟨k, h⟩
    cases h
    rfl
  · rintro rfl
    exact ⟨_, .unknown name⟩

/-- **An order is refused for the first of its leaves that has a fault.** -/
theorem sortKeys_error_iff : o.sortKeys r = .error c ↔ FirstFailure (Fails r) o.leaves c := by
  induction o generalizing c with
  | both a b iha ihb =>
    rw [sortKeys, leaves, FirstFailure.both_iff (fun _ => iha) fun _ => ihb]
  | id d =>
    have hleaves : (Order.id d).leaves = [.id d] := rfl
    have hok : (Order.id d).sortKeys r ≠ .error c := by simp [sortKeys]
    rw [hleaves, FirstFailure.singleton_iff]
    exact iff_of_false hok (id_not_fails d)
  | field path d =>
    have hleaves : (field path d).leaves = [field path d] := rfl
    rw [hleaves, FirstFailure.singleton_iff, field_fails_iff, sortKeys, map_eq_error]
  | unknown name =>
    have hleaves : (unknown name).leaves = [unknown name] := rfl
    rw [hleaves, FirstFailure.singleton_iff, unknown_fails_iff]
    exact ⟨Except.error.inj, congrArg _⟩

/-- **The sort keys of an order are those of its leaves**, one for each, in their order. -/
theorem hasKeys {keys : List SortKey} (h : o.sortKeys r = .ok keys) :
    List.Forall₂ (HasKey r) o.leaves keys := by
  induction o generalizing keys with
  | both a b iha ihb =>
    obtain ⟨first, ha, h⟩ := bind_eq_ok.1 h
    obtain ⟨second, hb, h⟩ := bind_eq_ok.1 h
    cases h
    exact List.rel_append (iha ha) (ihb hb)
  | id d =>
    cases h
    exact .cons (.id d) .nil
  | field path d =>
    obtain ⟨e, he, h⟩ := bind_eq_ok.1 h
    cases h
    exact .cons (.field d he) .nil
  | unknown name => cases h

theorem HasKey.unique {k k' : SortKey} (h : HasKey r o k) (h' : HasKey r o k') : k = k' := by
  cases h with
  | id => cases h'; rfl
  | field d he =>
    cases h' with
    | field _ he' =>
      rw [he] at he'
      cases he'
      rfl

/-- Orders with the same leaves have the same sort keys, or are refused for the same cause. -/
theorem sortKeys_congr {p : Order} (h : p.leaves = o.leaves) : p.sortKeys r = o.sortKeys r := by
  cases hp : p.sortKeys r with
  | error c =>
    rw [sortKeys_error_iff, h] at hp
    exact (sortKeys_error_iff.2 hp).symm
  | ok keys =>
    cases ho : o.sortKeys r with
    | error c =>
      rw [sortKeys_error_iff, ← h, ← sortKeys_error_iff, hp] at ho
      cases ho
    | ok keys' =>
      have hkeys := hasKeys hp
      rw [h] at hkeys
      have hunique : Relator.RightUnique (HasKey r) := fun _ _ _ => HasKey.unique
      rw [hunique.forall₂ hkeys (hasKeys ho)]

/-- Nothing is wrong with an order exactly if no leaf has a fault. -/
theorem wellFormed_iff : o.WellFormed r ↔ ∀ l ∈ o.leaves, ∀ c, ¬ l.Fails r c := by
  constructor
  · intro h l hl c hc
    obtain ⟨k, hfault⟩ := fails_iff.1 hc
    cases hfault with
    | unknown name => exact h.known name hl
    | path d hpath => exact Resolver.wellFormed_iff.1 (h.paths _ d hl) _ _ hpath
  · intro h
    refine ⟨fun name hl => h _ hl _ (unknown_fails_iff.2 rfl), fun path d hl => ?_⟩
    refine Resolver.wellFormed_iff.2 fun k c hpath => h _ hl c (fails_iff.2 ⟨k, .path d hpath⟩)

end Order

/-! ## What an order means -/

section Ranking

variable {α : Type} {p q s : α → α → Prop} {x y : α}

/-- By the first ranking, and by the second where the first finds no difference. -/
def thenBy (p q : α → α → Prop) (x y : α) : Prop :=
  (p x y ∧ ¬ p y x) ∨ (p x y ∧ p y x ∧ q x y)

theorem thenBy_iff : thenBy p q x y ↔ p x y ∧ (p y x → q x y) := by
  unfold thenBy
  tauto

/-- **How rankings are bracketed does not matter.** -/
theorem thenBy_assoc (p q s : α → α → Prop) :
    thenBy (thenBy p q) s = thenBy p (thenBy q s) := by
  funext x y
  simp only [thenBy_iff, eq_iff_iff]
  tauto

/-- A ranking that finds no difference adds nothing behind another. -/
theorem thenBy_true (p : α → α → Prop) : thenBy p (fun _ _ => True) = p := by
  funext x y
  simp [thenBy_iff]

theorem true_thenBy (q : α → α → Prop) : thenBy (fun _ _ => True) q = q := by
  funext x y
  simp [thenBy_iff]

/-- Any two rows can be compared, and what ranks before something ranks before all behind it. -/
structure IsRanking (p : α → α → Prop) : Prop where
  total : ∀ x y, p x y ∨ p y x
  trans : ∀ x y z, p x y → p y z → p x z

theorem IsRanking.swap (h : IsRanking p) : IsRanking fun x y => p y x :=
  ⟨fun x y => h.total y x, fun x y z hxy hyz => h.trans z y x hyz hxy⟩

/-- Two rankings one behind the other are a ranking. -/
theorem IsRanking.thenBy (hp : IsRanking p) (hq : IsRanking q) : IsRanking (thenBy p q) where
  total x y := by
    have htotal := hp.total x y
    have hties := hq.total x y
    simp only [thenBy_iff]
    tauto
  trans x y z hxy hyz := by
    rw [thenBy_iff] at hxy hyz ⊢
    refine ⟨hp.trans x y z hxy.1 hyz.1, fun hzx => ?_⟩
    -- all three tie by the first ranking
    have hyx : p y x := hp.trans y z x hyz.1 hzx
    have hzy : p z y := hp.trans z x y hzx hxy.1
    exact hq.trans x y z (hxy.2 hyx) (hyz.2 hzy)

/-- How a sort key ranks rows, where it is known how its operand does. -/
def SortKey.ranks (le : Operand → α → α → Prop) (k : SortKey) : α → α → Prop :=
  match k.direction with
  | .asc => le k.operand
  | .desc => fun x y => le k.operand y x

/-- How sort keys rank rows: a later one breaks the ties of those before it. -/
def ranksBy (le : Operand → α → α → Prop) : List SortKey → α → α → Prop
  | [] => fun _ _ => True
  | k :: ks => thenBy (k.ranks le) (ranksBy le ks)

/-- How an order ranks rows: by its first part, and by its second where the first finds no
difference. What has no sort key ranks nothing. -/
def Order.ranks (r : Resolver) (le : Operand → α → α → Prop) : Order → α → α → Prop
  | both a b => thenBy (a.ranks r le) (b.ranks r le)
  | id d => SortKey.ranks le ⟨.id, d⟩
  | field path d => fun x y => ∃ e, r.operand path = .ok e ∧ SortKey.ranks le ⟨e, d⟩ x y
  | unknown _ => fun _ _ => False

variable {le : Operand → α → α → Prop}

theorem ranksBy_append (ks ls : List SortKey) :
    ranksBy le (ks ++ ls) = thenBy (ranksBy le ks) (ranksBy le ls) := by
  induction ks with
  | nil => exact (true_thenBy _).symm
  | cons k ks ih => rw [List.cons_append, ranksBy, ranksBy, ih, thenBy_assoc]

theorem ranksBy_singleton (k : SortKey) : ranksBy le [k] = k.ranks le := thenBy_true _

theorem isRanking_ranksBy (h : ∀ e, IsRanking (le e)) (ks : List SortKey) :
    IsRanking (ranksBy le ks) := by
  induction ks with
  | nil => exact ⟨fun _ _ => .inl trivial, fun _ _ _ _ _ => trivial⟩
  | cons k ks ih =>
    refine IsRanking.thenBy ?_ ih
    unfold SortKey.ranks
    cases k.direction with
    | asc => exact h k.operand
    | desc => exact (h k.operand).swap

/-- **An order ranks rows as its sort keys do.** -/
theorem Order.ranks_eq {r : Resolver} {o : Order} {keys : List SortKey}
    (h : o.sortKeys r = .ok keys) : o.ranks r le = ranksBy le keys := by
  induction o generalizing keys with
  | both a b iha ihb =>
    obtain ⟨first, ha, h⟩ := bind_eq_ok.1 h
    obtain ⟨second, hb, h⟩ := bind_eq_ok.1 h
    cases h
    rw [Order.ranks, iha ha, ihb hb, ranksBy_append]
  | id d =>
    cases h
    rw [Order.ranks, ranksBy_singleton]
  | field path d =>
    obtain ⟨e, he, h⟩ := bind_eq_ok.1 h
    cases h
    rw [ranksBy_singleton]
    funext x y
    rw [Order.ranks, he]
    simp
  | unknown name => cases h

end Ranking

/-! ## Sort keys in a statement -/

namespace Order

variable {r : Resolver} {o : Order} {k : SortKey} {keys : List SortKey}

/-- The text of an operand has commas only inside literals. -/
theorem whole_operand {path : String} {e : Operand} (hr : r.base = docColumn)
    (h : r.operand path = .ok e) : Whole e.text.toList := by
  rcases Resolver.operand_ok h with ⟨name, -, -, rfl⟩ | ⟨keys, last, -, -, rfl⟩
  · refine Whole.plain fun c hc => ⟨?_, ?_⟩ <;> rintro rfl
    · exact name.notMem (by decide) (by decide) hc
    · exact name.notMem (by decide) (by decide) hc
  · have hbase : Whole r.base.toList := by
      rw [hr]
      exact Whole.plain (by simp [docColumn])
    rw [Operand.text, String.toList_append]
    exact hbase.append (Whole.arrows _)

/-- So has the text of a sort key. -/
theorem HasKey.whole (hr : r.base = docColumn) (h : HasKey r o k) : Whole k.text.toList := by
  have hkey : ∀ (e : Operand) (d : Direction), Whole e.text.toList →
      Whole (SortKey.text ⟨e, d⟩).toList := by
    intro e d he
    have hdirection : Whole (" " ++ d.text).toList :=
      Whole.plain (by cases d <;> simp [Direction.text])
    have htext : (SortKey.text ⟨e, d⟩).toList = e.text.toList ++ (" " ++ d.text).toList := by
      rw [SortKey.text, String.append_assoc, String.toList_append]
    rw [htext]
    exact he.append hdirection
  cases h with
  | id d => exact hkey .id d (Whole.plain (by simp [Operand.text, idColumn]))
  | field d he => exact hkey _ d (whole_operand hr he)

theorem leaves_ne_nil (o : Order) : o.leaves ≠ [] := by
  induction o with
  | both a b iha ihb => simp [leaves, iha]
  | field | id | unknown => simp [leaves]

/-- What the sort keys of an order are. -/
structure Flattened (r : Resolver) (o : Order) (keys : List SortKey) : Prop where
  /-- There is one for each leaf, from left to right. -/
  fragments : List.Forall₂ (HasKey r) o.leaves keys
  /-- They rank rows as the tree does, whatever the operands mean. -/
  ranks : ∀ {α : Type} (le : Operand → α → α → Prop), o.ranks r le = ranksBy le keys
  /-- If the operands rank rows, so do they. -/
  isRanking : ∀ {α : Type} (le : Operand → α → α → Prop), (∀ e, IsRanking (le e)) →
    IsRanking (ranksBy le keys)
  /-- Their text is split into the texts of the keys. -/
  read : readOrderBy (orderByText keys) = some (keys.map SortKey.text)

theorem flattened (hr : r.base = docColumn) (h : o.sortKeys r = .ok keys) : o.Flattened r keys := by
  have hkeys := hasKeys h
  have hwhole : ∀ {ls ks}, List.Forall₂ (HasKey r) ls ks → ∀ k ∈ ks, Whole k.text.toList := by
    intro ls ks h
    induction h with
    | nil => simp
    | cons hk _ ih => exact List.forall_mem_cons.2 ⟨hk.whole hr, ih⟩
  refine ⟨hkeys, fun le => ranks_eq h, fun le hle => isRanking_ranksBy hle keys, ?_⟩
  refine readOrderBy_text ?_ (hwhole hkeys)
  rintro rfl
  exact leaves_ne_nil o (List.forall₂_nil_right_iff.1 hkeys)

/-- **An order is the list of its leaves.** It has sort keys exactly if each leaf has a meaning, and
is refused for the first that has none. The sort keys are those of the leaves, mean what the tree
means and can be read off their text. How the tree is put together from the leaves does not matter,
and putting orders together puts their leaves one behind the other. -/
theorem order_flattened (promote : Bool) (o : Order) :
    let r : Resolver := { promote }
    ((∃ keys, o.sortKeys r = .ok keys) ↔ o.WellFormed r) ∧
      (∀ c, o.sortKeys r = .error c ↔ FirstFailure (Fails r) o.leaves c) ∧
      (∀ keys, o.sortKeys r = .ok keys → o.Flattened r keys) ∧
      (∀ p : Order, p.leaves = o.leaves → p.sortKeys r = o.sortKeys r) ∧
      ∀ p : Order, ∃ q, thenOf (.node o) (.node p) = .ok q ∧ q.leaves = o.leaves ++ p.leaves := by
  intro r
  refine ⟨?_, fun c => sortKeys_error_iff, fun keys h => flattened rfl h,
    fun p h => sortKeys_congr h, fun p => ⟨both o p, rfl, rfl⟩⟩
  rw [wellFormed_iff, FirstFailure.ok_iff fun _ => sortKeys_error_iff]

/-- Two ways to put three leaves together, with a comma and quotes in a path. -/
theorem order_flattened_commas :
    let r : Resolver := { promote := true }
    let a := Order.field "x', 'y.z" .desc
    let b := Order.field "metadata.v" .asc
    let keys := [SortKey.mk (.json "doc" ["x', 'y", "z"]) .desc, ⟨.column ⟨"v", rfl⟩, .asc⟩,
      ⟨.id, .asc⟩]
    (both (both a b) (.id .asc)).sortKeys r = .ok keys ∧
      (both a (both b (.id .asc))).sortKeys r = .ok keys ∧
      orderByText keys = "ORDER BY doc->'x'', ''y'->'z' DESC, v ASC, id ASC" ∧
      readOrderBy "ORDER BY doc->'x'', ''y'->'z' DESC, v ASC, id ASC" =
        some ["doc->'x'', ''y'->'z' DESC", "v ASC", "id ASC"] := by
  intro r a b keys
  have h : (both (both a b) (.id .asc)).sortKeys r = .ok keys := rfl
  obtain ⟨-, -, hflat, hsame, -⟩ := order_flattened true (both (both a b) (.id .asc))
  have hread := (hflat keys h).read
  exact ⟨h, (hsame (both a (both b (.id .asc))) rfl).trans h, rfl, hread⟩

end Order

end Docbase
