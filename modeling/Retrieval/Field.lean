import Retrieval.Text.Lowercase

/-!
# Document fields

A document has five fields. A query names one of them in letters of any case; an index file names
them in small letters.
-/

namespace Retrieval

/-- A part of a document that has its own tokens. -/
inductive Field where
  | body
  | title
  | url
  | keywords
  | inlink
deriving DecidableEq, Hashable, Repr, Inhabited

namespace Field

/-- All fields, in the order of reports. -/
def all : List Field := [.body, .title, .url, .keywords, .inlink]

/-- The name of a field. -/
def name : Field → String
  | .body => "body"
  | .title => "title"
  | .url => "url"
  | .keywords => "keywords"
  | .inlink => "inlink"

/-- The field with exactly this name. -/
def ofName? (text : String) : Option Field :=
  all.find? fun field => field.name = text

/-- The field that a query names, in letters of any case. -/
def ofQuery? (text : String) : Option Field :=
  ofName? (Text.lowerAscii text)

end Field

/-- A value for each field. -/
structure FieldTable (α : Type) where
  /-- The value for the body. -/
  body : α
  /-- The value for the title. -/
  title : α
  /-- The value for the address. -/
  url : α
  /-- The value for the keywords. -/
  keywords : α
  /-- The value for the texts of incoming links. -/
  inlink : α

namespace FieldTable

variable {α : Type}

/-- The table with one value for all fields. -/
def fill (value : α) : FieldTable α := ⟨value, value, value, value, value⟩

/-- The value for a field. -/
def get (table : FieldTable α) : Field → α
  | .body => table.body
  | .title => table.title
  | .url => table.url
  | .keywords => table.keywords
  | .inlink => table.inlink

/-- The table with another value for one field. -/
def set (table : FieldTable α) (field : Field) (value : α) : FieldTable α :=
  match field with
  | .body => { table with body := value }
  | .title => { table with title := value }
  | .url => { table with url := value }
  | .keywords => { table with keywords := value }
  | .inlink => { table with inlink := value }

@[simp]
theorem get_fill (value : α) (field : Field) : (fill value).get field = value := by
  cases field <;> rfl

@[simp]
theorem get_set (table : FieldTable α) (field other : Field) (value : α) :
    (table.set field value).get other = if other = field then value else table.get other := by
  cases field <;> cases other <;> rfl

end FieldTable

end Retrieval
