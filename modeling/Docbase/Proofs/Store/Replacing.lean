import Docbase.Proofs.Engine.Ledger
import Docbase.Proofs.Store.Documents
import Docbase.Proofs.Store.Rows

/-!
# Documents put in the place of others

A document can be put in the place of a stored one by one statement, or the stored one is deleted and
the other added. The first way writes the document and the columns of its own metadata. What the row
held in other columns stays there, while a row that is added has nothing in them.

* `Finds.replaceDoc`, `Finds.deleteThenAdd`: the row behind either way.
* `replaced_alike_iff`: **the two ways leave the same exactly if the old row had nothing in the other
  columns**, and only what it had there shows in the new row.
* `replaced_kept_column`: a row whose version stays with a document that has none.
-/

namespace Docbase

open Sql Store

variable {β γ σ : Type} [Engine σ] {db : Schema β γ} {server : σ → Server β γ} {k : ConnectionId}
  {x x' : Server β γ} {s s' : Session σ} {c table id : String} {d : Value} {r : Record} {doc : β}
  {cells : List Char → Option γ} {old old' : Stored β γ}

/-- The names that the columns of a record are read as. -/
def Record.readNames (r : Record) : List (List Char) := r.columns.map fun c => readName c.1.text

namespace Session.Finds

variable (hdb : Engine.Realizes db server)

include hdb

/-- What is put in the place of a row is written over it. -/
theorem replaceDoc (hs : s.Finds server k table id x)
    (htable : Collection.tableName c s.options.tableStart = table) (hadmits : db.admits table id)
    (hd : db.Accepts s.options.promote table d r doc cells)
    (hold : x.seen k table id = some old) :
    ∃ t, runFrom s (Store.replaceDoc (.str c) (.str id) d) = (.ok (), t) ∧
      server t.engine
        = (x.change k table id (some (old.written doc cells))).ended s.options.transactional k := by
  have hrow : db.on (.store .replace (doc, cells)) (x.seen k table id)
      = some (some (old.written doc cells)) := by
    rw [hold]
    rfl
  obtain ⟨t, hrun, -, hserver⟩ := hs.stores hdb htable hadmits hd .replace hrow
  exact ⟨t, hrun, hserver⟩

/-- A row that is deleted and added again is written over one with nothing in it. -/
theorem deleteThenAdd (hs : s.Finds server k table id x)
    (htable : Collection.tableName c s.options.tableStart = table) (hadmits : db.admits table id)
    (hd : db.Accepts s.options.promote table d r doc cells) :
    ∃ u, runFrom s (do deleteDoc (.str c) (.str id); addDoc (.str c) (.str id) d) = (.ok (), u) ∧
      server u.engine = (x.change k table id (some ((db.bare doc).written doc cells))).ended
        s.options.transactional k := by
  obtain ⟨t, hdelete, hleads, hserver⟩ := hs.deletes hdb htable hadmits
  have htakes : ((x.change k table id none).ended s.options.transactional k).Takes k s.cursorId :=
    (hs.takes.change table id none).ended s.options.transactional
  have hclear : ((x.change k table id none).ended s.options.transactional k).Clear k table id :=
    (hs.clear.change none).ended s.options.transactional
  have ht := Session.Finds.of_leads hleads hserver htakes hclear
  have hrow : db.on (.store .insert (doc, cells))
      (((x.change k table id none).ended s.options.transactional k).seen k table id)
        = some (some ((db.bare doc).written doc cells)) := by
    rw [Server.seen_ended, Server.seen_change, Contents.set_self]
    rfl
  rw [← hleads.options] at htable hd
  obtain ⟨u, hadd, -, hserver⟩ := ht.stores hdb htable hadmits hd .insert hrow
  refine ⟨u, ?_, ?_⟩
  · rw [runFrom_bind, hdelete]
    exact hadd
  · rw [hserver, hleads.options, Server.ended_change]

end Session.Finds

/-- What two changes of a row leave is the same exactly if the row is. -/
theorem Server.ended_change_eq_iff {x : Server β γ} {transactional : Bool} {table : String}
    {row other : Option (Stored β γ)} :
    (x.change k table id row).ended transactional k = (x.change k table id other).ended transactional k
      ↔ row = other := by
  constructor
  · intro h
    have hseen := congrArg (fun y : Server β γ => y.seen k table id) h
    simpa only [seen_ended, seen_change, Contents.set_self] using hseen
  · rintro rfl
    rfl

/-- **Putting a document in the place of another is deleting and adding it, but for stale columns.**
The two leave the same exactly if the old row held nothing in the columns that the metadata of the
document does not name; and the new rows behind two old ones are the same exactly if the old ones
held the same there. -/
theorem replaced_alike_iff (hdb : Engine.Realizes db server) (hs : s.Finds server k table id x)
    (hs' : s'.Finds server k table id x') (hoptions : s'.options = s.options)
    (htable : Collection.tableName c s.options.tableStart = table) (hadmits : db.admits table id)
    (hd : db.Accepts s.options.promote table d r doc cells)
    (hold : x.seen k table id = some old) (hold' : x'.seen k table id = some old') :
    ∃ t t' u,
      runFrom s (replaceDoc (.str c) (.str id) d) = (.ok (), t) ∧
      runFrom s' (replaceDoc (.str c) (.str id) d) = (.ok (), t') ∧
      runFrom s (do deleteDoc (.str c) (.str id); addDoc (.str c) (.str id) d) = (.ok (), u) ∧
      server u.engine = (x.change k table id (some ((db.bare doc).written doc cells))).ended
        s.options.transactional k ∧
      (server t.engine = server u.engine ↔ ∀ n ∉ r.readNames, old.cell n = db.null) ∧
      ((server t.engine).seen k table id = (server t'.engine).seen k table id ↔
        ∀ n ∉ r.readNames, old.cell n = old'.cell n) := by
  obtain ⟨t, hreplace, ht⟩ := hs.replaceDoc hdb htable hadmits hd hold
  obtain ⟨u, hadd, hu⟩ := hs.deleteThenAdd hdb htable hadmits hd
  have hagree : ∀ other : Stored β γ,
      (some (old.written doc cells) = some (other.written doc cells) ↔
        ∀ n ∉ r.readNames, old.cell n = other.cell n) := by
    intro other
    rw [Option.some.injEq, Stored.written_eq_iff]
    exact forall_congr' fun n => imp_congr_left (Schema.cells?_none hd.cells n)
  rw [← hoptions] at htable hd
  obtain ⟨t', hreplace', ht'⟩ := hs'.replaceDoc hdb htable hadmits hd hold'
  refine ⟨t, t', u, hreplace, hreplace', hadd, hu, ?_, ?_⟩
  · rw [ht, hu, Server.ended_change_eq_iff, hagree]
    rfl
  · rw [ht, ht', Server.seen_ended, Server.seen_ended, Server.seen_change, Server.seen_change,
      Contents.set_self, Contents.set_self, hagree]

/-- A row without members, and with a version unless that is null. -/
def Stored.versioned (version : Value) : Stored Sheet Value :=
  ⟨⟨[], Object.empty, rfl⟩, fun n => if n = readName "version" then version else .null⟩

/-- A store that promotes metadata, on a ledger with one row. -/
def Session.onLedger (version : Value) : Session Ledger :=
  .withConnection
    { (default : Options) with tableStart := "em_ds_", transactional := true, promote := true } {}
    { server :=
        { lasting := Contents.set (fun _ _ => none) "em_ds_animals" "a" (some (.versioned version))
          own := fun _ _ _ => none
          failed := fun _ => false
          cursors := fun _ => none }
      rows := fun _ => [] }

/-- A document without metadata. -/
def Value.cat : Value := .object [("kind", .str "cat")]

theorem onLedger_finds (version : Value) :
    (Session.onLedger version).Finds Ledger.server 0 "em_ds_animals" "a"
      ((Session.onLedger version).engine.server.open 0 0) where
  reaches := .held rfl rfl rfl
  takes := Server.takes_open rfl 0
  clear := fun _ _ => rfl

theorem accepts_cat : ∃ (r : Record) (doc : Sheet),
    r.columns = [] ∧ Ledger.schema.Accepts true "em_ds_animals" .cat r doc fun _ => none := by
  obtain ⟨o, ho⟩ : ∃ o, Value.object? [(.str "kind", .str "cat")] = some o := ⟨_, rfl⟩
  have hsplit : Record.splitMetadata true [(.str "kind", .str "cat")]
      = .ok ([(.str "kind", .str "cat")], []) := by
    simp [Record.splitMetadata, Entries.get?, Key.same, metadataKey]
  obtain ⟨text, hrecord, hdecode⟩ := Options.record_object ho rfl hsplit
  exact ⟨⟨text, []⟩, _, rfl, hrecord, Sheet.ofText?_eq hdecode ho, rfl⟩

/-- The version of a row stays, where it would have gone with the row. -/
theorem replaced_kept_column :
    ∃ t u : Session Ledger,
      runFrom (.onLedger (.int 1)) (replaceDoc (.str "animals") (.str "a") .cat) = (.ok (), t) ∧
      runFrom (.onLedger (.int 1)) (do
        deleteDoc (.str "animals") (.str "a")
        addDoc (.str "animals") (.str "a") .cat) = (.ok (), u) ∧
      (t.engine.server.lasting "em_ds_animals" "a").map (·.cell (readName "version"))
        = some (.int 1) ∧
      (u.engine.server.lasting "em_ds_animals" "a").map (·.cell (readName "version"))
        = some .null := by
  have hs := onLedger_finds (.int 1)
  obtain ⟨r, doc, -, hd⟩ := accepts_cat
  have hold : ((Session.onLedger (.int 1)).engine.server.open 0 0).seen 0 "em_ds_animals" "a"
      = some (.versioned (.int 1)) := rfl
  obtain ⟨t, hreplace, ht⟩ := hs.replaceDoc Ledger.realizes Shelf.tableName_animals trivial hd hold
  obtain ⟨u, hadd, hu⟩ := hs.deleteThenAdd Ledger.realizes Shelf.tableName_animals trivial hd
  refine ⟨t, u, hreplace, hadd, ?_, ?_⟩
  · rw [ht]
    rfl
  · rw [hu]
    rfl

/-- A version that is not there any more shows in the row behind it. -/
theorem replaced_alike_iff_version :
    ∃ t t' u : Session Ledger,
      runFrom (.onLedger (.int 1)) (replaceDoc (.str "animals") (.str "a") .cat) = (.ok (), t) ∧
      runFrom (.onLedger .null) (replaceDoc (.str "animals") (.str "a") .cat) = (.ok (), t') ∧
      runFrom (.onLedger (.int 1)) (do
        deleteDoc (.str "animals") (.str "a")
        addDoc (.str "animals") (.str "a") .cat) = (.ok (), u) ∧
      t.engine.server ≠ u.engine.server ∧
      t.engine.server.seen 0 "em_ds_animals" "a" ≠ t'.engine.server.seen 0 "em_ds_animals" "a" := by
  obtain ⟨r, doc, hcolumns, hd⟩ := accepts_cat
  obtain ⟨t, t', u, hreplace, hreplace', hadd, -, hsame, hseen⟩ :=
    replaced_alike_iff Ledger.realizes (onLedger_finds (.int 1)) (onLedger_finds .null) rfl
      Shelf.tableName_animals trivial hd rfl rfl
  have hversion : readName "version" ∉ r.readNames := by simp [Record.readNames, hcolumns]
  refine ⟨t, t', u, hreplace, hreplace', hadd, fun h => ?_, fun h => ?_⟩
  · exact absurd (hsame.1 h _ hversion) (by simp [Stored.versioned, Ledger.schema])
  · exact absurd (hseen.1 h _ hversion) (by simp [Stored.versioned])

end Docbase
