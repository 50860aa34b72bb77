import Docbase.Collection.Name
import Docbase.Proofs.Engine.Documents

/-!
# A shelf of documents

An engine in memory for one connection and one table. It takes the statements for single documents
and no others, and like a database it takes no statement any more behind one that failed, up to the
end of the transaction.

* `Shelf`: the documents that last, and those with the changes since.
* `Shelf.keeps`: a shelf keeps documents.
-/

namespace Docbase

open Sql

/-- A document as it is kept: its members, which are those of an object. -/
structure Sheet where
  members : Entries
  object : Object
  means : Value.object? members = some object

namespace Sheet

/-- The document that another one is merged into. -/
def merge (old new : Sheet) : Sheet :=
  ⟨old.members.merge new.members, old.object.merge new.object,
    Value.object?_merge old.means new.means⟩

/-- The document of a JSON text. -/
def ofText? (text : String) : Option Sheet :=
  match Json.decode none text with
  | .ok (.mapping es) =>
    match h : Value.object? es with
    | some o => some ⟨es, o, h⟩
    | none => none
  | _ => none

theorem ofText?_eq {text : String} {es : Entries} {o : Object}
    (hdecode : Json.decode none text = .ok (.mapping es)) (ho : Value.object? es = some o) :
    ofText? text = some ⟨es, o, ho⟩ := by
  rw [ofText?, hdecode]
  simp only
  split
  · next o' h =>
    rw [ho] at h
    cases h
    rfl
  · next h =>
    rw [ho] at h
    cases h

/-- The rows of a document. -/
def rowsOf : Option Sheet → List Value
  | none => []
  | some sheet => [.mapping [(.str docColumn, .mapping sheet.members)]]

theorem inRow (sheet : Sheet) :
    Document.InRow sheet.members [(.str docColumn, .mapping sheet.members)] :=
  ⟨_, by simp [Entries.get?, Key.same], .decoded⟩

theorem rows_rowsOf (sheet : Option Sheet) : Rows (sheet.map Sheet.object) (rowsOf sheet) := by
  cases sheet with
  | none => rfl
  | some sheet => exact ⟨_, sheet.members, rfl, sheet.inRow, sheet.means⟩

end Sheet

/-- A shelf of documents, by their ids. -/
structure Shelf where
  /-- The documents that last. -/
  lasting : String → Option Sheet := fun _ => none
  /-- The documents with the changes of the transaction. -/
  seen : String → Option Sheet := fun _ => none
  /-- No statement of the transaction has failed. -/
  intact : Bool := true
  /-- The rows that were found last. -/
  rows : List Value := []

namespace Shelf

/-- The table that the documents are in. -/
def table : String := "em_ds_animals"

theorem tableName_animals : Collection.tableName "animals" "em_ds_" = table := by decide +kernel

/-- The way of storing that a text is the statement of. -/
def mode? (text : String) : Option Mode :=
  [.insert, .merge, .replace].find? fun mode => mode.text table == text

/-- The document that is bound. -/
def bound? (params : Params) : Option Sheet :=
  match params.get? "doc" with
  | some (.str text) => Sheet.ofText? text
  | _ => none

/-- What a statement does with the values that are bound to it. -/
def effect? (text : String) (params : Params) : Option (Effect Sheet) :=
  if text = deleteText table then some .delete
  else do
    let mode ← mode? text
    let sheet ← bound? params
    return .store mode sheet

/-- A statement fails. -/
def fail (e : EngineError) (s : Shelf) : Except EngineError Int × Shelf :=
  (.error e, { s with intact := false })

/-- Changes the document of an id. -/
def change (id : String) (effect : Effect Sheet) (s : Shelf) : Except EngineError Int × Shelf :=
  match effect.onDoc Sheet.merge (s.seen id) with
  | some kept => (.ok 1, { s with seen := fun i => if i = id then kept else s.seen i })
  | none => s.fail ⟨.integrity, "duplicate key value violates unique constraint"⟩

/-- Finds the document of an id. -/
def find (id : String) (s : Shelf) : Except EngineError Int × Shelf :=
  (.ok (Sheet.rowsOf (s.seen id)).length, { s with rows := Sheet.rowsOf (s.seen id) })

/-- Executes a statement about the document of an id. -/
def execute (text id : String) (params : Params) (s : Shelf) : Except EngineError Int × Shelf :=
  if text = readText table then s.find id
  else
    match effect? text params with
    | some effect => s.change id effect
    | none => s.fail ⟨.programming, "no such statement"⟩

/-- Executes a command. -/
def run (command : Command) (s : Shelf) : Except EngineError Int × Shelf :=
  if s.intact then
    match command.params with
    | some params =>
      match params.get? "id" with
      | some (.str id) => s.execute command.text id params
      | _ => s.fail ⟨.data, "invalid input"⟩
    | none => s.fail ⟨.programming, "no such statement"⟩
  else s.fail ⟨.programming, "current transaction is aborted"⟩

/-- Takes the changes back. -/
def restore (s : Shelf) : Shelf := { s with seen := s.lasting, intact := true }

instance : Engine Shelf where
  connect _ _ s := (.ok (), s.restore)
  openCursor _ _ s := s
  execute _ command s := s.run command
  fetchAll _ s := (.ok s.rows, { s with rows := [] })
  fetchNext _ s := (.ok s.rows.head?, { s with rows := s.rows.tail })
  commit _ s := (.ok (), if s.intact then { s with lasting := s.seen } else s.restore)
  rollback _ s := s.restore
  closeCursor _ s := s
  disconnect _ s := s.restore

/-- Documents by their ids are those of the one table. -/
def kept (sheets : String → Option Sheet) : Kept :=
  fun t id => if t = table then (sheets id).map Sheet.object else none

/-- What a shelf says about documents. -/
def documents : Database Shelf where
  admits t _ := t = table
  lasting s := kept s.lasting
  seen s := kept s.seen
  intact s := s.intact = true
  opened _ _ := True

theorem kept_table (sheets : String → Option Sheet) (id : String) :
    kept sheets table id = (sheets id).map Sheet.object := if_pos rfl

theorem kept_set (sheets : String → Option Sheet) (id : String) (sheet : Option Sheet) :
    kept (fun i => if i = id then sheet else sheets i)
      = (kept sheets).set table id (sheet.map Sheet.object) := by
  funext t i
  unfold kept Contents.set
  by_cases ht : t = table
  · by_cases hi : i = id
    · simp [ht, hi]
    · simp [ht, hi]
  · simp [ht]

theorem mode?_text (mode : Mode) : mode? (mode.text table) = some mode := by
  cases mode <;> decide +kernel

theorem mode_text_ne (mode : Mode) : mode.text table ≠ deleteText table := by
  cases mode <;> decide +kernel

theorem text_ne {α : Type} (effect : Effect α) : effect.text table ≠ readText table := by
  cases effect with
  | store mode _ => cases mode <;> simp only [Effect.text] <;> decide +kernel
  | delete => simp only [Effect.text]; decide +kernel

/-- A statement has its effect, on the document that is bound to it. -/
theorem effect?_text {effect : Effect Object} {params : Params} {id : String}
    (h : effect.Binds params id) : ∃ sheets, effect? (effect.text table) params = some sheets ∧
      sheets.map Sheet.object = effect := by
  cases h with
  | @store mode text es o hid htext hdecode hobject =>
    refine ⟨.store mode ⟨es, o, hobject⟩, ?_, rfl⟩
    simp only [effect?, Effect.text, if_neg (mode_text_ne mode), mode?_text, bound?, htext,
      Sheet.ofText?_eq hdecode hobject]
    rfl
  | delete hid => exact ⟨.delete, if_pos rfl, rfl⟩

/-- A statement that changes a document changes it on the shelf. -/
theorem run_change {s : Shelf} {id : String} {params : Params} {effect : Effect Object}
    {command : Command} (hs : s.intact = true) (htext : command.text = effect.text table)
    (hparams : command.params = some params) (hbinds : effect.Binds params id) :
    ∃ sheets, s.run command = s.change id sheets ∧
      effect.onDoc Object.merge (kept s.seen table id)
        = (sheets.onDoc Sheet.merge (s.seen id)).map (Option.map Sheet.object) := by
  obtain ⟨sheets, hsheets, rfl⟩ := effect?_text hbinds
  refine ⟨sheets, ?_, ?_⟩
  · rw [run, if_pos hs]
    simp only [hparams, hbinds.id]
    rw [execute, htext, if_neg (text_ne _), hsheets]
  · rw [kept_table]
    exact Effect.onDoc_map (fun _ _ => rfl) sheets (s.seen id)

theorem run_read {s : Shelf} {id : String} {params : Params} {command : Command}
    (hs : s.intact = true) (htext : command.text = readText table)
    (hparams : command.params = some params) (hid : params.get? "id" = some (.str id)) :
    s.run command = s.find id := by
  rw [run, if_pos hs]
  simp only [hparams, hid]
  rw [execute, if_pos htext]

/-- **A shelf keeps documents.** -/
theorem keeps (k : ConnectionId) : Engine.Keeps k documents where
  connect target s := ⟨s.restore, rfl, rfl, rfl, rfl⟩
  openCursor h c := ⟨h, trivial⟩
  change := by
    rintro m n s c t id params left effect command ⟨hs, rfl, rfl⟩ - rfl htext hparams hbinds hleft
    obtain ⟨sheets, hrun, hon⟩ := run_change hs htext hparams hbinds
    have hseen : documents.seen s table id = kept s.seen table id := rfl
    rw [hseen, hon, Option.map_eq_some_iff] at hleft
    obtain ⟨stored, hstored, rfl⟩ := hleft
    have hchange : s.change id sheets
        = (.ok 1, { s with seen := fun i => if i = id then stored else s.seen i }) := by
      rw [change, hstored]
    exact ⟨1, _, hrun.trans hchange, ⟨hs, rfl, kept_set s.seen id stored⟩, trivial⟩
  refuse := by
    rintro m n s c t id params effect command ⟨hs, rfl, rfl⟩ - rfl htext hparams hbinds hnone
    obtain ⟨sheets, hrun, hon⟩ := run_change hs htext hparams hbinds
    have hseen : documents.seen s table id = kept s.seen table id := rfl
    rw [hseen, hon, Option.map_eq_none_iff] at hnone
    have hchange : s.change id sheets
        = s.fail ⟨.integrity, "duplicate key value violates unique constraint"⟩ := by
      rw [change, hnone]
    exact ⟨_, _, hrun.trans hchange, rfl, rfl, trivial⟩
  read := by
    rintro m n s c t id params command ⟨hs, rfl, rfl⟩ - rfl htext hparams hid
    refine ⟨_, _, _, _, run_read hs htext hparams hid, rfl, ?_, ⟨hs, rfl, rfl⟩, trivial⟩
    have hseen : documents.seen s table id = (s.seen id).map Sheet.object := kept_table s.seen id
    rw [hseen]
    exact Sheet.rows_rowsOf (s.seen id)
  commit := by
    rintro m n s ⟨hs, rfl, rfl⟩
    have hlasts : Engine.commit k s = (.ok (), { s with lasting := s.seen }) :=
      congrArg (Prod.mk _) (if_pos hs)
    exact ⟨_, hlasts, ⟨hs, rfl, rfl⟩, fun _ _ => trivial⟩
  rollback s := ⟨⟨rfl, rfl, rfl⟩, fun _ _ => trivial⟩

end Shelf

end Docbase
