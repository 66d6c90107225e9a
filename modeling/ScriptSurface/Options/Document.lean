import ScriptSurface.Json.Documents
import ScriptSurface.Options

/-!
# Options in documents

Options are a record of which a document may give any part (`Options.record`).  They are read from
documents of any format (`Options.load?`) and written into them (`Options.save`); in JSON these are
`Options.read?` and `Options.write`.
-/

namespace ScriptSurface

/-- The name of an order in documents. -/
def DiscoveryOrder.name : DiscoveryOrder → String
  | sortedByName => "sortedByName"
  | declared => "declared"

namespace Options

/-- The order in which declared members are gone through. -/
def discoveryOrderField : RecordField Options where
  key := "discoveryOrder"
  type := .choice [.sortedByName, .declared] DiscoveryOrder.name
  get := discoveryOrder
  set o order := { o with discoveryOrder := order }

/-- Whether methods named like getters and setters make properties. -/
def beanPropertiesField : RecordField Options where
  key := "beanProperties"
  type := .bool
  get := beanProperties
  set o b := { o with beanProperties := b }

/-- Whether the universal base type has members of its own. -/
def exposeBaseTypeMembersField : RecordField Options where
  key := "exposeBaseTypeMembers"
  type := .bool
  get := exposeBaseTypeMembers
  set o b := { o with exposeBaseTypeMembers := b }

/-- Whether protected fields and methods are exposed. -/
def includeProtectedField : RecordField Options where
  key := "includeProtected"
  type := .bool
  get := includeProtected
  set o b := { o with includeProtected := b }

/-- How deep substitution goes. -/
def maxDepthField : RecordField Options where
  key := "maxConsolidationDepth"
  type := .whole
  get := maxDepth
  set o depth := { o with maxDepth := depth }

/-- Options as a record, of which a document may give any part. -/
def record : Record Options where
  default := default
  fields := [discoveryOrderField, beanPropertiesField, exposeBaseTypeMembersField,
    includeProtectedField, maxDepthField]
  nodup_keys := by decide

/-- The options in a document. -/
def load? (format : DocumentFormat) (text : String) : Option Options := format.read? record text

/-- The document that gives all options. -/
def save (format : DocumentFormat) (o : Options) : String := format.write record o

/-- The options in a JSON document. -/
def read? (text : String) : Option Options := load? Json.documents text

/-- The JSON document that gives all options. -/
def write (o : Options) : String := save Json.documents o

end Options

end ScriptSurface
