import Std.Data.TreeMap
import TenantGate.Series.Basic
/-!
# Labels of a submitted series

Labels are gathered by name, so that a later value of a name replaces an earlier one, and are
written in the order of the names without those whose value is empty.  A tag `key:value` becomes a
label of its own kind, which cannot take the name of another label.
-/

namespace TenantGate

abbrev LabelMap := Std.TreeMap String String

namespace LabelMap

def isNameChar (c : Char) : Bool := c.isAlphanum || c == '_' || c == ':'

/-- Every character that a metric name may not hold becomes an underscore. -/
def sanitizeName (name : String) : String :=
  name.map fun c => if isNameChar c then c else '_'

def tagPrefix : String := "ddtag_"

def splitTag? (tag : String) : Option (String × String) :=
  match tag.toList.dropWhile (· != ':') with
  | [] => none
  | _ :: value => some (String.ofList (tag.toList.takeWhile (· != ':')), String.ofList value)

/-- The label of a tag; a tag without a colon has none. -/
def tagLabel? (tag : String) : Option (String × String) :=
  (splitTag? tag).map fun (key, value) => (tagPrefix ++ sanitizeName key, value)

def insertTags (labels : LabelMap) (tags : List String) : LabelMap :=
  (tags.filterMap tagLabel?).foldl (fun m (name, value) => m.insert name value) labels

def job : String := "ddagent"

def base (metric host : String) : LabelMap :=
  ((({} : LabelMap).insert "__name__" (sanitizeName metric)).insert "instance" host).insert
    "job" job

/-- The labels with a value, in the order of their names. -/
def written (labels : LabelMap) : List Label :=
  (labels.toList.filter fun (_, value) => !value.isEmpty).map fun (name, value) => ⟨name, value⟩

end LabelMap
end TenantGate
