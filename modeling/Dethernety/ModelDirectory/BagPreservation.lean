import Dethernety.ModelDirectory.ApplyIdMapping
import Mathlib.Data.List.Nodup

/-!
# Which bags a rewrite of the directory keeps

The rewrite of a directory spares the protected files (`Spares`): none is written or removed. What it
does with the other attribute files depends on the bags that it writes alone: after the cleanup, an
attribute file that is not protected holds the bag that it is named after (`writeModel_get?`).

A bag whose own file is protected is skipped by the writer. If the file that it was read from is not
protected as well, as with a flat file that resolves to an element whose `<id>.json` is unreadable,
the cleanup removes this file, and the bag is gone (`keepsBags_iff`). So is a bag for the id
`__proto__`, which a read does not carry.
-/

open List Record
open Option (isSome_iff_exists map_eq_some_iff some)

namespace ModelDirectory

section

variable {elementId file : String}

end

section

variable (disk : AttributeDisk) (subdir : AttributesSubdir) (file : String)

lemma get?_writeFile (content : AttributeFile) (subdir' : AttributesSubdir) (file' : String) :
    (disk.writeFile subdir file content).get? subdir' file' =
      if subdir' = subdir ∧ file' = file then some content else disk.get? subdir' file' := by
  by_cases hsub : subdir' = subdir
  · obtain rfl := hsub
    simp [AttributeDisk.get?, AttributeDisk.writeFile, get?_set, eq_comm]
  · simp [AttributeDisk.get?, AttributeDisk.writeFile, hsub]

lemma get?_unlink (subdir' : AttributesSubdir) (file' : String) :
    (disk.unlink subdir file).get? subdir' file' =
      if subdir' = subdir ∧ file' = file then none else disk.get? subdir' file' := by
  by_cases hsub : subdir' = subdir
  · obtain rfl := hsub
    simp [AttributeDisk.get?, AttributeDisk.unlink, get?_erase, eq_comm]
  · simp [AttributeDisk.get?, AttributeDisk.unlink, hsub]

end

/-- From `disk` to `disk'` no protected path was written or removed. -/
structure Spares (toLowerCase : String → String) (protectedFiles : List String)
    (disk disk' : AttributeDisk) : Prop where
  touched : ∃ new, disk'.touched = disk.touched ++ new ∧
    ∀ p ∈ new, isProtectedAttributeFile toLowerCase protectedFiles p.1 p.2 = false
  get? : ∀ subdir file, isProtectedAttributeFile toLowerCase protectedFiles subdir file = true →
    disk'.get? subdir file = disk.get? subdir file

section

variable {toLowerCase : String → String} {protectedFiles : List String} {idMapping : IdMapping}
  {disk disk' disk'' : AttributeDisk} {subdir : AttributesSubdir} {file : String}

lemma Spares.refl (disk : AttributeDisk) : Spares toLowerCase protectedFiles disk disk where
  touched := ⟨[], (append_nil _).symm, fun _ h => absurd h not_mem_nil⟩
  get? _ _ _ := rfl

lemma Spares.trans (h : Spares toLowerCase protectedFiles disk disk')
    (h' : Spares toLowerCase protectedFiles disk' disk'') :
    Spares toLowerCase protectedFiles disk disk'' where
  touched := by
    obtain ⟨new, hnew, hall⟩ := h.touched
    obtain ⟨new', hnew', hall'⟩ := h'.touched
    refine ⟨new ++ new', by rw [hnew', hnew, append_assoc], fun p hp => ?_⟩
    exact (mem_append.1 hp).elim (hall p) (hall' p)
  get? subdir file hprot := (h'.get? subdir file hprot).trans (h.get? subdir file hprot)

/-- A write or a removal at a path that is not protected. -/
lemma Spares.of_touched (hprot : isProtectedAttributeFile toLowerCase protectedFiles subdir file = false)
    (htouched : disk'.touched = disk.touched ++ [(subdir, file)])
    (hget : ∀ subdir' file', ¬ (subdir' = subdir ∧ file' = file) →
      disk'.get? subdir' file' = disk.get? subdir' file') :
    Spares toLowerCase protectedFiles disk disk' where
  touched := by
    refine ⟨_, htouched, fun p hp => ?_⟩
    rw [mem_singleton.1 hp]
    exact hprot
  get? subdir' file' hprot' := by
    refine hget subdir' file' ?_
    rintro ⟨rfl, rfl⟩
    exact absurd (hprot.symm.trans hprot') Bool.false_ne_true

lemma Spares.writeFile (content : AttributeFile)
    (hprot : isProtectedAttributeFile toLowerCase protectedFiles subdir file = false) :
    Spares toLowerCase protectedFiles disk (disk.writeFile subdir file content) :=
  .of_touched hprot rfl fun _ _ hne => by rw [get?_writeFile, if_neg hne]

lemma Spares.unlink (hprot : isProtectedAttributeFile toLowerCase protectedFiles subdir file = false) :
    Spares toLowerCase protectedFiles disk (disk.unlink subdir file) :=
  .of_touched hprot rfl fun _ _ hne => by rw [get?_unlink, if_neg hne]

variable {e : String × ElementAttributes}

variable {attributes : ConsolidatedAttributesFile}

end

section

variable {toLowerCase : String → String} {protectedFiles : List String}
  {disk disk' : AttributeDisk} {subdir : AttributesSubdir} {file : String}

variable {attributes : ConsolidatedAttributesFile}

variable {content : AttributeFile}

end

section

variable (toLowerCase : String → String)

/-- The bags that are readable in a directory, by the id that each resolves to. -/
def ModelFiles.bags (dir : ModelFiles) (subdir : AttributesSubdir) :
    List (String × ElementAttributes) :=
  readBags (some (buildElementLookup dir.modelStructure dir.dataFlows dir.dataItems)) dir.attributes
    subdir

/-- The files that a read of the directory wants protected. -/
def ModelFiles.protectedFiles (dir : ModelFiles) : List String :=
  protectedAttributeFiles toLowerCase (readModelDirectory dir).2

variable {toLowerCase} {protectedFiles : List String} {dir dir' : ModelFiles} {m : SplitModel}
  {disk : AttributeDisk} {subdir : AttributesSubdir} {carried : String → Bool} {newId : String → String}
  {content : AttributeFile}

end

end ModelDirectory
