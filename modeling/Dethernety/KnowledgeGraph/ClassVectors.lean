import Mathlib.Data.List.Induction
import Mathlib.Logic.Function.Basic

/-!
# The vectors of the classes

`resolveVectors` of the module management, for a module without vectors of its own and an embedder that is ready, and
Phase 3 of `upsertModule`. A class node is found by its label and name, and the vectors go from the one to the other
under the name alone.
-/

open List Function

namespace ClassVectors

inductive ClassLabel
  | componentClass
  | dataFlowClass
  | securityBoundaryClass
  | controlClass
  | dataClass
  | analysisClass
  | issueClass
  deriving DecidableEq

/-- The labels in the order of `MODULE_CLASS_CONFIGS`. -/
def moduleClassConfigs : List ClassLabel :=
  [.componentClass, .dataFlowClass, .securityBoundaryClass, .controlClass, .dataClass, .analysisClass, .issueClass]

/-- A field that is left out is the empty text. -/
structure DTClass where
  name : String
  description : String
  category : String
  type : String

def orElse (text fallback : String) : String :=
  if text = "" then fallback else text

def composeClassText (cls : DTClass) : String :=
  cls.name ++ ". " ++ cls.description ++ ". Category: " ++ orElse cls.category "General" ++ ". Type: " ++
    orElse cls.type "Unknown" ++ "."

/-- Metadata that the validation of modules accepts. -/
structure Metadata where
  classes : ClassLabel → List DTClass
  named : ∀ label, ∀ cls ∈ classes label, cls.name ≠ ""

variable {V : Type*}

/-- An embedder that answers a batch of texts and titles with one vector that can be stored for each text. -/
structure Embedder (V : Type*) where
  embedBatch : List String → List String → List V
  length_eq : ∀ texts titles, (embedBatch texts titles).length = texts.length

variable (embedder : Embedder V) (metadata : Metadata)

def Metadata.allClasses : List (DTClass × ClassLabel) :=
  moduleClassConfigs.flatMap fun label => (metadata.classes label).map (·, label)

/-- The map that `resolveVectors` returns. -/
def resolveVectors : String → Option V :=
  let missing := metadata.allClasses.filter fun c => c.1.name ≠ ""
  let fresh := embedder.embedBatch (missing.map fun c => composeClassText c.1) (missing.map fun c => c.1.name)
  (missing.zip fresh).foldl (fun resolved e => update resolved e.1.1.name (some e.2)) fun _ => none

/-- Phase 3 of `upsertModule` when every class is applied: the embeddings of the class nodes, by label and name. A class
without a vector loses the one that its node has. -/
def upsertClasses (vectors : String → Option V) (stored : ClassLabel × String → Option V) :
    ClassLabel × String → Option V :=
  metadata.allClasses.foldl (fun stored c => update stored (c.2, c.1.name) (vectors c.1.name)) stored

/-- The declared classes, with what the embedder answers for the text of each. -/
def answered : List ((DTClass × ClassLabel) × V) :=
  metadata.allClasses.zip (embedder.embedBatch (metadata.allClasses.map fun c => composeClassText c.1)
    (metadata.allClasses.map fun c => c.1.name))

/-- The node of each declared class has the vector of the class. -/
def OwnVectors (stored : ClassLabel × String → Option V) : Prop :=
  ∀ e ∈ answered embedder metadata,
    upsertClasses metadata (resolveVectors embedder metadata) stored (e.1.2, e.1.1.name) = some e.2

variable {embedder metadata}

lemma foldl_update_of_mem {α K W : Type*} [DecidableEq K] (key : α → K) (value : α → W) {l : List α} {a : α}
    (h : a ∈ l) (f : K → W) : ∃ b ∈ l, key b = key a ∧
      l.foldl (fun f a => update f (key a) (value a)) f (key a) = value b := by
  induction l using List.reverseRecOn with
  | nil => cases h
  | append_singleton l b ih =>
    rw [foldl_append, foldl_cons, foldl_nil]
    by_cases hb : key a = key b
    · exact ⟨b, by simp, hb.symm, by rw [hb, update_self]⟩
    · rw [update_of_ne hb]
      obtain ⟨c, hc, hkey, hvalue⟩ := ih (by simpa [ne_of_apply_ne key hb] using h)
      exact ⟨c, mem_append_left _ hc, hkey, hvalue⟩

lemma resolveVectors_eq : resolveVectors embedder metadata =
    (answered embedder metadata).foldl (fun (resolved : String → Option V) e => update resolved e.1.1.name (some e.2))
      fun _ => none := by
  have hnamed : metadata.allClasses.filter (fun c => c.1.name ≠ "") = metadata.allClasses := by
    refine filter_eq_self.2 fun c hc => ?_
    simp only [Metadata.allClasses, mem_flatMap, mem_map] at hc
    obtain ⟨label, -, cls, hcls, rfl⟩ := hc
    exact decide_eq_true (metadata.named label cls hcls)
  rw [resolveVectors, hnamed, answered]

/-- A class node gets the vector of a class of the same name. -/
theorem exists_upsertClasses {e : (DTClass × ClassLabel) × V} (he : e ∈ answered embedder metadata)
    (stored : ClassLabel × String → Option V) : ∃ e' ∈ answered embedder metadata,
      e'.1.1.name = e.1.1.name ∧ resolveVectors embedder metadata e.1.1.name = some e'.2 ∧
        upsertClasses metadata (resolveVectors embedder metadata) stored (e.1.2, e.1.1.name) = some e'.2 := by
  obtain ⟨e', he', hname, hvector⟩ := foldl_update_of_mem (fun e : (DTClass × ClassLabel) × V => e.1.1.name)
    (fun e => some e.2) he fun _ => none
  obtain ⟨c, hc, hkey, hstored⟩ := foldl_update_of_mem (fun c : DTClass × ClassLabel => (c.2, c.1.name))
    (fun c => resolveVectors embedder metadata c.1.name) (of_mem_zip he).1 stored
  rw [← resolveVectors_eq] at hvector
  refine ⟨e', he', hname, hvector, hstored.trans ?_⟩
  rw [(Prod.mk.inj hkey).2, hvector]

/-- Every class node has the vector of its class exactly if classes of the same name have the same vector. -/
theorem ownVectors_iff (embedder : Embedder V) (metadata : Metadata) (stored : ClassLabel × String → Option V) :
    OwnVectors embedder metadata stored ↔
      ∀ e ∈ answered embedder metadata, ∀ e' ∈ answered embedder metadata, e.1.1.name = e'.1.1.name → e.2 = e'.2 := by
  refine ⟨fun h e he e' he' hname => ?_, fun h e he => ?_⟩
  · -- Both nodes have what the map holds for the name.
    obtain ⟨_, -, -, hvector, hown⟩ := exists_upsertClasses he stored
    obtain ⟨_, -, -, hvector', hown'⟩ := exists_upsertClasses he' stored
    rw [h e he, ← hvector, hname, hvector', ← hown', h e' he'] at hown
    exact Option.some.inj hown
  · obtain ⟨e', he', hname, -, hstored⟩ := exists_upsertClasses he stored
    rw [hstored, h e' he' e he hname]

/-- A component class and a data class with one name. -/
def homonyms : Metadata where
  classes
    | .componentClass => [⟨"Log", "A service", "", ""⟩]
    | .dataClass => [⟨"Log", "A file", "", ""⟩]
    | _ => []
  named label := by cases label <;> simp

/-- The component class gets the vector of the data class. -/
theorem not_ownVectors_homonyms :
    ¬ ∀ (embedder : Embedder String) (metadata : Metadata), OwnVectors embedder metadata fun _ => none := by
  intro h
  have hown := h ⟨fun texts _ => texts, fun _ _ => rfl⟩ homonyms
    ((⟨"Log", "A service", "", ""⟩, .componentClass), "Log. A service. Category: General. Type: Unknown.") (.head _)
  revert hown
  decide +kernel

end ClassVectors
