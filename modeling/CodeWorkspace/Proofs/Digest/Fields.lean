import CodeWorkspace.Job
import Mathlib.Algebra.Group.Nat.Defs
import Mathlib.Tactic.Common

/-! What a buffer tells of the inputs it was put together from. Every field says itself where it ends, as
long as lengths, counts and versions fit into words, so the fields can be read back one by one. -/
namespace CodeWorkspace

namespace Buffer

@[simp] theorem length_littleEndian (count n : Nat) : (littleEndian count n).length = count := by
  induction count generalizing n with
  | zero => rfl
  | succ count ih => simp [littleEndian, ih]

theorem littleEndian_inj {count n m : Nat} (hn : n < 256 ^ count) (hm : m < 256 ^ count)
    (h : littleEndian count n = littleEndian count m) : n = m := by
  induction count generalizing n m with
  | zero =>
    simp only [Nat.pow_zero] at hn hm
    omega
  | succ count ih =>
    simp only [littleEndian, List.cons.injEq] at h
    have low : n % 256 = m % 256 := by
      have := congrArg UInt8.toNat h.1
      simpa using this
    have high : n / 256 = m / 256 := by
      refine ih ?_ ?_ h.2
      all_goals
        rw [Nat.pow_succ] at hn hm
        exact Nat.div_lt_of_lt_mul (by omega)
    omega

theorem number_append_inj {n m : Nat} {x y : Buffer} (hn : n < UInt64.size) (hm : m < UInt64.size)
    (h : number n ++ x = number m ++ y) : n = m ∧ x = y := by
  obtain ⟨same, rest⟩ := List.append_inj h (by simp [number])
  exact ⟨littleEndian_inj hn hm same, rest⟩

theorem utf8_inj {s t : String} (h : utf8 s = utf8 t) : s = t := by
  have bytes : s.toByteArray.data = t.toByteArray.data := Array.toList_inj.mp h
  exact String.toByteArray_inj.mp (ByteArray.ext bytes)

theorem text_append_inj {s t : String} {x y : Buffer} (hs : (utf8 s).length < UInt64.size)
    (ht : (utf8 t).length < UInt64.size) (h : text s ++ x = text t ++ y) : s = t ∧ x = y := by
  simp only [text, List.append_assoc] at h
  obtain ⟨lengths, h⟩ := number_append_inj hs ht h
  obtain ⟨same, rest⟩ := List.append_inj h lengths
  exact ⟨utf8_inj same, rest⟩

theorem digest_append_inj {d e : Digest} {x y : Buffer} (h : digest d ++ x = digest e ++ y) :
    d = e ∧ x = y := by
  have bound (d : Digest) : d.toNat < 256 ^ 16 := by
    have := d.high.toNat_lt
    have := d.low.toNat_lt
    simp only [Digest.toNat, UInt64.size]
    omega
  obtain ⟨same, rest⟩ := List.append_inj h (by simp [digest])
  have whole : d.toNat = e.toNat := littleEndian_inj (bound d) (bound e) same
  obtain ⟨dh, dl⟩ := d
  obtain ⟨eh, el⟩ := e
  have := dl.toNat_lt
  have := el.toNat_lt
  simp only [Digest.toNat, UInt64.size] at whole
  refine ⟨?_, rest⟩
  rw [Digest.mk.injEq, ← UInt64.toNat_inj, ← UInt64.toNat_inj]
  omega

end Buffer

namespace Job.Inputs

/-- Lengths, counts and versions fit into the words that stand for them. -/
structure Fits (i : Inputs) : Prop where
  project : (Buffer.utf8 i.project).length < UInt64.size
  documents : i.documents.length < UInt64.size
  references : i.references.length < UInt64.size
  paths : ∀ d ∈ i.documents, (Buffer.utf8 d.path.text).length < UInt64.size
  versions : ∀ d ∈ i.documents, d.version < UInt64.size

instance (i : Inputs) : Decidable i.Fits :=
  decidable_of_iff
    ((Buffer.utf8 i.project).length < UInt64.size ∧ i.documents.length < UInt64.size ∧
      i.references.length < UInt64.size ∧
      (∀ d ∈ i.documents, (Buffer.utf8 d.path.text).length < UInt64.size) ∧
      ∀ d ∈ i.documents, d.version < UInt64.size)
    ⟨fun ⟨project, documents, references, paths, versions⟩ =>
      ⟨project, documents, references, paths, versions⟩,
    fun h => ⟨h.project, h.documents, h.references, h.paths, h.versions⟩⟩

theorem documentFields_append_inj {ds es : List Document} {x y : Buffer}
    (lengths : ds.length = es.length)
    (hd : ∀ d ∈ ds, (Buffer.utf8 d.path.text).length < UInt64.size ∧ d.version < UInt64.size)
    (he : ∀ d ∈ es, (Buffer.utf8 d.path.text).length < UInt64.size ∧ d.version < UInt64.size)
    (h : documentFields ds ++ x = documentFields es ++ y) :
    ds.map (fun d => (d.path.text, d.version)) = es.map (fun d => (d.path.text, d.version)) ∧
      x = y := by
  induction ds generalizing es with
  | nil =>
    cases es with
    | nil => exact ⟨rfl, h⟩
    | cons => simp at lengths
  | cons d ds ih =>
    cases es with
    | nil => simp at lengths
    | cons e es =>
      rw [List.forall_mem_cons] at hd he
      simp only [documentFields, List.flatMap_cons, Buffer.document, Buffer.path,
        List.append_assoc] at h
      obtain ⟨path, h⟩ := Buffer.text_append_inj hd.1.1 he.1.1 h
      obtain ⟨version, h⟩ := Buffer.number_append_inj hd.1.2 he.1.2 h
      obtain ⟨more, rest⟩ := ih (Nat.succ.inj lengths) hd.2 he.2 h
      simp only [List.map_cons, path, version, more]
      exact ⟨trivial, rest⟩

theorem referenceFields_inj {ss ts : List Snapshot} (lengths : ss.length = ts.length)
    (h : referenceFields ss = referenceFields ts) : ss.map (·.digest) = ts.map (·.digest) := by
  induction ss generalizing ts with
  | nil =>
    cases ts with
    | nil => rfl
    | cons => simp at lengths
  | cons s ss ih =>
    cases ts with
    | nil => simp at lengths
    | cons t ts =>
      simp only [referenceFields, List.flatMap_cons] at h
      obtain ⟨same, rest⟩ := Buffer.digest_append_inj h
      simp only [List.map_cons, same, ih (Nat.succ.inj lengths) rest]

/-- The fields of the inputs of a build can be read off their buffer. -/
theorem fields_of_buffer_eq {i j : Inputs} (hi : i.Fits) (hj : j.Fits) (h : i.buffer = j.buffer) :
    i.project = j.project ∧
      i.documents.map (fun d => (d.path.text, d.version)) =
        j.documents.map (fun d => (d.path.text, d.version)) ∧
      i.references.map (·.digest) = j.references.map (·.digest) := by
  simp only [buffer, List.append_assoc] at h
  obtain ⟨project, h⟩ := Buffer.text_append_inj hi.project hj.project h
  obtain ⟨documents, h⟩ := Buffer.number_append_inj hi.documents hj.documents h
  obtain ⟨stamps, h⟩ := documentFields_append_inj documents
    (fun d hd => ⟨hi.paths d hd, hi.versions d hd⟩) (fun d hd => ⟨hj.paths d hd, hj.versions d hd⟩) h
  obtain ⟨references, h⟩ := Buffer.number_append_inj hi.references hj.references h
  exact ⟨project, stamps, referenceFields_inj references h⟩

/-- Among all that is hashed, no two buffers have one digest, and every buffer can be read back. -/
structure CollisionFree (hashed : List Inputs) : Prop where
  fits : ∀ i ∈ hashed, i.Fits
  buffer_eq : ∀ i ∈ hashed, ∀ j ∈ hashed, i.digest = j.digest → i.buffer = j.buffer

instance (hashed : List Inputs) : Decidable (CollisionFree hashed) :=
  decidable_of_iff
    ((∀ i ∈ hashed, i.Fits) ∧ ∀ i ∈ hashed, ∀ j ∈ hashed, i.digest = j.digest → i.buffer = j.buffer)
    ⟨fun ⟨fits, buffer_eq⟩ => ⟨fits, buffer_eq⟩, fun h => ⟨h.fits, h.buffer_eq⟩⟩

namespace CollisionFree

variable {hashed : List Inputs}

theorem mono {fewer : List Inputs} (h : CollisionFree hashed) (sub : ∀ i ∈ fewer, i ∈ hashed) :
    CollisionFree fewer where
  fits i hi := h.fits i (sub i hi)
  buffer_eq i hi j hj := h.buffer_eq i (sub i hi) j (sub j hj)

theorem fields (h : CollisionFree hashed) {i j : Inputs} (hi : i ∈ hashed) (hj : j ∈ hashed)
    (same : i.digest = j.digest) :
    i.project = j.project ∧
      i.documents.map (fun d => (d.path.text, d.version)) =
        j.documents.map (fun d => (d.path.text, d.version)) ∧
      i.references.map (·.digest) = j.references.map (·.digest) :=
  fields_of_buffer_eq (h.fits i hi) (h.fits j hj) (h.buffer_eq i hi j hj same)

end CollisionFree

end Job.Inputs
end CodeWorkspace
