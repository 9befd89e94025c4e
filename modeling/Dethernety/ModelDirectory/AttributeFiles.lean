import Dethernety.ModelDirectory.SplitModel

/-!
# The attribute files of a model directory

Model of the part of `directory-utils.ts` that works under `attributes/`: a file there holds the bag
of one element, either in the structured format of the platform or in the flat format of an agent,
which names its element by the type and the name. `readAttributes` reads the bags and reports the
files that it could not use, and `writeAttributes` and `cleanupStaleAttributeFiles` spare those of
them whose bytes may be the only copy of some work.

The disk tells file names apart by case; `toLowerCase` is that of strings. A file that cannot be read, that is
not JSON, or whose JSON is no object is `unreadable`. The disk also records every path that was
written or removed.
-/

namespace ModelDirectory

inductive AttributeFile
  | unreadable
  | object (rawJson : Record String Json)

/-- The files of the attribute directories. -/
structure AttributeDisk where
  files : AttributesSubdir → Record String AttributeFile
  /-- The paths that were written or removed. -/
  touched : List (AttributesSubdir × String)

namespace AttributeDisk

variable (disk : AttributeDisk) (subdir : AttributesSubdir) (file : String)

/-- `fs.readFile` -/
def get? : Option AttributeFile :=
  (disk.files subdir).get? file

def writeFile (content : AttributeFile) : AttributeDisk where
  files := Function.update disk.files subdir ((disk.files subdir).set file content)
  touched := disk.touched ++ [(subdir, file)]

/-- `fs.unlink`, where the absence of the file is ignored. -/
def unlink : AttributeDisk where
  files := Function.update disk.files subdir ((disk.files subdir).erase file)
  touched := disk.touched ++ [(subdir, file)]

end AttributeDisk

/-- `text.replace(old, '')`: the first occurrence is left out. -/
def removeFirst (old : List Char) : List Char → List Char
  | [] => []
  | c :: text => if old <+: c :: text then (c :: text).drop old.length else c :: removeFirst old text

def jsonExtension : List Char :=
  ['.', 'j', 's', 'o', 'n']

def isJsonFile (file : String) : Bool :=
  jsonExtension.isSuffixOf file.toList

/-- `file.replace('.json', '')` -/
def stem (file : String) : String :=
  String.ofList (removeFirst jsonExtension file.toList)

/-- `${elementId}.json` -/
def fileOf (elementId : String) : String :=
  String.ofList (elementId.toList ++ jsonExtension)

/-- `\w` or `-` -/
def isIdChar (c : Char) : Bool :=
  c.isAlphanum || c == '_' || c == '-'

/-- `validateElementId` does not throw: the id is matched by `/^[\w-]+$/`. -/
def isValidElementId (elementId : String) : Bool :=
  elementId ≠ "" && elementId.toList.all isIdChar

def AttributeElementType.text : AttributeElementType → String
  | boundary => "boundary"
  | component => "component"
  | dataFlow => "dataFlow"
  | dataItem => "dataItem"

def AttributesSubdir.text : AttributesSubdir → String
  | boundaries => "boundaries"
  | components => "components"
  | dataFlows => "dataFlows"
  | dataItems => "dataItems"

def attributeFileKey (subdir : AttributesSubdir) (file : String) : String :=
  "attributes/" ++ subdir.text ++ "/" ++ file

/-- The id field of `FLAT_FORMAT_META`. -/
def AttributesSubdir.idField : AttributesSubdir → String
  | boundaries => "boundaryId"
  | components => "componentId"
  | dataFlows => "flowId"
  | dataItems => "dataItemId"

def FLAT_METADATA_FIELDS : AttributeElementType → List String
  | .boundary => ["boundaryId", "name", "type"]
  | .component => ["componentId", "name", "type"]
  | .dataFlow =>
    ["flowId", "name", "sourceId", "targetId", "source_boundary", "target_boundary",
      "crosses_boundary"]
  | .dataItem => ["dataItemId", "name"]

/-- `typeof value === 'object'` -/
def Json.isObject : Json → Bool
  | null | array _ | object _ => true
  | _ => false

def stringField (rawJson : Record String Json) (field : String) : Option String :=
  match rawJson.get? field with
  | some (.string s) => some s
  | _ => none

def isFlatFormat (rawJson : Record String Json) : Bool :=
  if (rawJson.get? "elementId").isSome && ((rawJson.get? "attributes").map (·.isObject)).getD false then
    false
  else
    ["componentId", "boundaryId", "flowId", "dataItemId"].any fun field => (rawJson.get? field).isSome

/-- The fields of an `ElementInfo` that `normalizeFlatAttribute` uses. -/
structure ElementInfo where
  id : String
  classData : Option Json

def lookupKey (elementType : AttributeElementType) (name : String) : String :=
  elementType.text ++ ":" ++ name

def buildElementLookup (s : ModelStructure String) (dataFlows : List (DataFlow String))
    (dataItems : List (DataItem String)) : Record String ElementInfo :=
  .ofList <| s.boundaries.map (fun b => (lookupKey .boundary b.name, ⟨b.id, b.classData⟩)) ++
    s.components.map (fun c => (lookupKey .component c.name, ⟨c.id, c.classData⟩)) ++
    dataFlows.map (fun f => (lookupKey .dataFlow f.name, ⟨f.id, f.classData⟩)) ++
    dataItems.map (fun d => (lookupKey .dataItem d.name, ⟨d.id, d.classData⟩))

/-- `object[key] = …` makes an entry of an object literal; the key `__proto__` sets its prototype. -/
def isOwnKey (key : String) : Bool :=
  key ≠ "__proto__"

/-- `normalizeFlatAttribute`: the id that the file is for and its bag. -/
def normalizeFlatAttribute (rawJson : Record String Json) (subdir : AttributesSubdir)
    (elementLookup : Record String ElementInfo) (file : String) : String × ElementAttributes :=
  let workNameId := stringField rawJson subdir.idField
  let elementName := stringField rawJson "name"
  let elementInfo := elementName.bind fun name =>
    if name = "" then none else elementLookup.get? (lookupKey subdir.elementType name)
  let resolvedId := ((elementInfo.map (·.id)).orElse fun _ => workNameId).getD (stem file)
  let attributes := rawJson.entries.filter fun e =>
    e.1 ∉ FLAT_METADATA_FIELDS subdir.elementType && isOwnKey e.1
  (resolvedId, .ofList <|
    [("elementId", .string resolvedId), ("elementType", .string subdir.elementType.text)] ++
    (elementName.toList.map fun name => ("elementName", .string name)) ++
    ((elementInfo.bind (·.classData)).toList.map fun classData => ("classData", classData)) ++
    [("attributes", .object attributes)])

section

structure AttributeReadIssue where
  file : String
  preserve : Bool

/-- What the read of a file comes to. -/
inductive ReadOutcome
  | bag (elementId : String) (attrs : ElementAttributes)
  | issue (preserve : Bool)

def readFile (elementLookup : Option (Record String ElementInfo)) (subdir : AttributesSubdir)
    (file : String) : AttributeFile → ReadOutcome
  | .unreadable => .issue true
  | .object rawJson =>
    if isFlatFormat rawJson then
      match elementLookup with
      | none => .issue true
      | some elementLookup =>
        let normalized := normalizeFlatAttribute rawJson subdir elementLookup file
        .bag normalized.1 normalized.2
    else
      match stringField rawJson "elementId" with
      | none => .issue false
      | some elementId =>
        -- known litter, not lost work
        if elementId = "" ∨ elementId = "undefined" then .issue false
        else if isValidElementId elementId then .bag elementId rawJson
        else .issue true

variable (elementLookup : Option (Record String ElementInfo)) (disk : AttributeDisk)

/-- The bags of a directory in the order of its files. -/
def readBags (subdir : AttributesSubdir) : List (String × ElementAttributes) :=
  (disk.files subdir).entries.filterMap fun e =>
    if isJsonFile e.1 then
      match readFile elementLookup subdir e.1 e.2 with
      | .bag elementId attrs => some (elementId, attrs)
      | .issue _ => none
    else none

/-- The issues of a directory in the order of its files. -/
def readIssues (subdir : AttributesSubdir) : List AttributeReadIssue :=
  (disk.files subdir).entries.filterMap fun e =>
    if isJsonFile e.1 then
      match readFile elementLookup subdir e.1 e.2 with
      | .bag _ _ => none
      | .issue preserve => some ⟨attributeFileKey subdir e.1, preserve⟩
    else none

/-- `readAttributes`: the bags by element id, where the last file for an id wins, and the issues. -/
def readAttributes : ConsolidatedAttributesFile × List AttributeReadIssue :=
  (fun subdir => .ofList ((readBags elementLookup disk subdir).filter fun e => isOwnKey e.1),
    ATTRIBUTES_SUBDIRS.flatMap (readIssues elementLookup disk))

end

variable (toLowerCase : String → String)

def protectedAttributeFiles (issues : List AttributeReadIssue) : List String :=
  (issues.filter (·.preserve)).map fun issue => toLowerCase issue.file

variable (protectedFiles : List String)

def isProtectedAttributeFile (subdir : AttributesSubdir) (file : String) : Bool :=
  protectedFiles.contains (toLowerCase (attributeFileKey subdir file))

/-- The write of one bag by `writeAttributes`; `none` is an id that `validateElementId` throws at. -/
def writeBag (subdir : AttributesSubdir) (disk : AttributeDisk) (e : String × ElementAttributes) :
    Option AttributeDisk :=
  if isValidElementId e.1 then
    if isProtectedAttributeFile toLowerCase protectedFiles subdir (fileOf e.1) then some disk
    else some (disk.writeFile subdir (fileOf e.1) (.object e.2))
  else none

def writeAttributes (disk : AttributeDisk) (attributes : ConsolidatedAttributesFile) :
    Option AttributeDisk :=
  ATTRIBUTES_SUBDIRS.foldlM (fun disk subdir =>
    (attributes subdir).entries.foldlM (writeBag toLowerCase protectedFiles subdir) disk) disk

end ModelDirectory
