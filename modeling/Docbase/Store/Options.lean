import Docbase.Field
import Docbase.Settings

/-!
# Options of a store

* `Options.ofConfig`: the options that a caller sets, the settings standing in for the others.
-/

namespace Docbase

/-- What a caller may set for a store. -/
structure Config where
  tableStart : Option String := none
  idType : Option String := none
  transactional : Option Bool := none
  promote : Option Bool := none
  batch : Option Int := none
  loggerName : Option String := none

/-- The options of a store. -/
structure Options where
  /-- What the names of tables start with. -/
  tableStart : String
  /-- How the id column is declared. -/
  idType : String
  /-- Whether changes are committed, or taken back, by the store. -/
  transactional : Bool
  /-- Whether metadata is promoted to columns. -/
  promote : Bool
  /-- How many rows a reader takes at a time. -/
  batch : Int
  /-- The name of the logger. -/
  loggerName : String
  deriving DecidableEq, Repr, Inhabited

namespace Options

/-- The name of the logger of stores that are given none. -/
def defaultLogger : String := "PostgresDocumentStore"

/-- The options that a caller sets. An empty type and a batch of zero count as not set. -/
def ofConfig (c : Config) (s : Settings) : Options where
  tableStart := c.tableStart.getD s.tableStart
  idType := (c.idType.filter (!·.isEmpty)).getD s.idType
  transactional := c.transactional.getD s.transactional
  promote := c.promote.getD s.promote
  batch := (c.batch.filter (· != 0)).getD s.batch
  loggerName := c.loggerName.getD defaultLogger

/-- How a store resolves the paths of fields. -/
def resolver (o : Options) : Resolver := { promote := o.promote }

end Options

end Docbase
