import Vnidrop.FileSystems
import Vnidrop.ImportedCollections
import Vnidrop.Receives

/-! What the store sends of a blob that is exported. An export takes the leaves only in order,
so what it has taken is the beginning of the blob. -/
namespace Vnidrop.Exports

open Paths FileSystems
open Receives (ReceivedLocatorKind)

/-- `offset` and `bytes` are those of a leaf. -/
inductive ExportRangesItem where
  | size (size : Nat)
  | data (offset : Nat) (bytes : Bytes)
  | error (message : Str)
  deriving DecidableEq

/-- The `progress` events of the phase `export`. -/
structure Progress where
  totalFiles : Nat
  currentFileIndex : Nat
  fileName : Str
  fileSize : Nat
  exported : Nat
  deriving DecidableEq

/-- `ReceivedArtifactInsert`, without the transfer. -/
structure Artifact (ω : Type) where
  relativePath : Str
  locatorKind : ReceivedLocatorKind
  locator : ω
  logicalSize : Nat
  deriving DecidableEq

/-- The bytes of the leaves. -/
def content : List ExportRangesItem → Bytes
  | [] => []
  | .data _ bytes :: rest => bytes ++ content rest
  | _ :: rest => content rest

/-- Each leaf starts where the one before it ends, and nothing has failed. -/
def Ordered : Nat → List ExportRangesItem → Prop
  | _, [] => True
  | n, .size _ :: rest => Ordered n rest
  | n, .data offset bytes :: rest => offset = n ∧ Ordered (n + bytes.length) rest
  | _, .error _ :: _ => False

/-- The leaves are parts of the blob. -/
def Of (blob : Bytes) (items : List ExportRangesItem) : Prop :=
  ∀ offset bytes, .data offset bytes ∈ items → bytes <+: blob.drop offset

section Streams

variable {a b : List ExportRangesItem} {n : Nat} {blob : Bytes}

@[simp] theorem content_append : content (a ++ b) = content a ++ content b := by
  induction a with
  | nil => rfl
  | cons item a ih => cases item <;> simp [content,ih]

@[simp] theorem ordered_append : Ordered n (a ++ b) ↔ Ordered n a ∧ Ordered (n + (content a).length) b := by
  induction a generalizing n with
  | nil => simp [Ordered,content]
  | cons item a ih =>
    cases item with
    | size | error => simp [Ordered,content,ih]
    | data offset bytes => simp [Ordered,content,ih,and_assoc,Nat.add_assoc]

/-- Leaves in order are the blob from there on. -/
theorem content_of (ordered : Ordered n a) (parts : Of blob a) : content a <+: blob.drop n := by
  induction a generalizing n with
  | nil => exact List.nil_prefix
  | cons item a ih =>
    have rest : Of blob a := fun offset bytes there => parts offset bytes (List.mem_cons_of_mem _ there)
    cases item with
    | size => exact ih ordered rest
    | error => exact ordered.elim
    | data offset bytes =>
      obtain ⟨rfl,ordered⟩ := ordered
      obtain ⟨more,whole⟩ := parts offset bytes List.mem_cons_self
      have later := ih ordered rest
      rw [← List.drop_drop,← whole,List.drop_left] at later
      rw [← whole]
      exact List.prefix_append_right_inj bytes |>.mpr later

/-- What has been exported is the beginning of the blob. -/
theorem content_prefix (ordered : Ordered 0 a) (parts : Of blob a) : content a <+: blob := content_of ordered parts

end Streams

end Vnidrop.Exports
