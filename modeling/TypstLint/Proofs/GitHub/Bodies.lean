import Mathlib.Data.List.Forall2
import TypstLint.Proofs.Except
import TypstLint.Proofs.GitHub.Wire

set_option autoImplicit false

/-! # What bodies hold

A body that is no JSON, or whose value has another form than what was asked for, cannot be decoded
(`Holds`, `ObjectOf`, `ListOf`). A body is decoded without the wire, and no failure to decode it is a
client error (`Decodes`). -/

namespace TypstLint.GitHub

open Json (Value Decoder)

variable {α : Type} {w : Wire}

/-! ## Values -/

/-- An object from which `x` is decoded. -/
def ObjectOf (g : Decoder α) (v : Value) (x : α) : Prop := ∃ members, v = .obj members ∧ g v = .valid x

/-- A list of objects from which `xs` are decoded. An empty text and an empty object count as an empty
list. -/
inductive ListOf (g : Decoder α) : Value → List α → Prop where
  | items {items : List Value} {xs : List α} (h : List.Forall₂ (ObjectOf g) items xs) :
      ListOf g (.arr items) xs
  | emptyObject : ListOf g (.obj []) []
  | emptyText : ListOf g (.str "") []

/-- A body that holds the value from which `x` is decoded. -/
def Holds (p : Value → α → Prop) (body : ByteArray) (x : α) : Prop :=
  ∃ v, Json.readBytes body = .ok v ∧ p v x

namespace Client

variable {g : Decoder α} {v : Value}

theorem decodeObject_eq_ok_iff {x : α} : decodeObject g v = .ok x ↔ ObjectOf g v x := by
  cases v with
  | obj members =>
    have hvalid : decodeObject g (.obj members) = .ok x ↔ g (.obj members) = .valid x := by
      rw [decodeObject, mapError_eq_ok]
      cases g (.obj members) with
      | valid y => simp [Json.Decoded.toExcept]
      | invalid n => simp [Json.Decoded.toExcept]
    simp [hvalid, ObjectOf]
  | _ => simp [decodeObject, ObjectOf]

theorem mapM_decodeObject_eq_ok_iff {items : List Value} {xs : List α} :
    items.mapM (decodeObject g) = .ok xs ↔ List.Forall₂ (ObjectOf g) items xs := by
  induction items generalizing xs with
  | nil => simp [pure, Except.pure, eq_comm]
  | cons v items ih =>
    simp only [List.mapM_cons, bind_eq_ok, decodeObject_eq_ok_iff, ih, List.forall₂_cons_left_iff]
    simp [pure, Except.pure, eq_comm]

theorem decodeList_eq_ok_iff {xs : List α} : decodeList g v = .ok xs ↔ ListOf g v xs := by
  constructor
  · intro h
    rw [decodeList.eq_def] at h
    split at h
    · exact .items (mapM_decodeObject_eq_ok_iff.mp h)
    · obtain rfl := Except.ok.inj h
      exact .emptyObject
    · next s =>
      split at h
      · next hempty =>
        obtain rfl := Except.ok.inj h
        obtain rfl : s = "" := String.isEmpty_iff.mp hempty
        exact .emptyText
      · cases h
    · cases h
  · rintro (h | _ | _)
    · exact mapM_decodeObject_eq_ok_iff.mpr h
    · rfl
    · rfl

theorem decodeObject_ne_client (e : ClientError) : decodeObject g v ≠ .error (.client e) := by
  intro h
  cases v with
  | obj members =>
    obtain ⟨n, -, ⟨⟩⟩ := mapError_eq_error.mp h
  | _ => cases h

theorem decodeList_ne_client (e : ClientError) : decodeList g v ≠ .error (.client e) := by
  intro h
  rw [decodeList.eq_def] at h
  split at h
  · obtain ⟨item, -, hitem⟩ := exists_error_of_mapM h
    exact decodeObject_ne_client e hitem
  · cases h
  · split at h
    · cases h
    · cases h
  · cases h

/-! ## Bodies -/

/-- A way of decoding responses: what is decoded from a body, without the wire. No failure is a client
error. -/
structure Decodes (decode : Response → Exchange α) (holds : ByteArray → α → Prop) : Prop where
  wire_eq : ∀ r w, ((decode r).on w).2 = w
  eq_ok_iff : ∀ r w x, ((decode r).on w).1 = .ok x ↔ holds r.body x
  ne_client : ∀ r w e, ((decode r).on w).1 ≠ .error (.client e)

/-- What is decoded from the value in a body. -/
theorem Decodes.ofValue {p : Value → α → Prop} {decode : Value → Except Failure α}
    (hok : ∀ v x, decode v = .ok x ↔ p v x) (hclient : ∀ v e, decode v ≠ .error (.client e)) :
    Decodes (fun r => do Exchange.ofExcept (decode (← bodyOf r))) (Holds p) := by
  have hon : ∀ (r : Response) w, (do Exchange.ofExcept (decode (← bodyOf r)) : Exchange α).on w
      = ((Json.readBytes r.body).mapError Failure.body >>= decode, w) := by
    intro r w
    rw [Exchange.on_bind, bodyOf]
    cases (Json.readBytes r.body).mapError Failure.body with
    | ok v => rfl
    | error e => rfl
  constructor
  · intro r w
    rw [hon]
  · intro r w x
    simp only [hon, bind_eq_ok, mapError_eq_ok, hok]
    rfl
  · intro r w e h
    rw [hon] at h
    rcases bind_eq_error.mp h with hread | ⟨v, -, hdecode⟩
    · obtain ⟨e', -, ⟨⟩⟩ := mapError_eq_error.mp hread
    · exact hclient v e hdecode

theorem decodes_objectIn (g : Decoder α) : Decodes (objectIn g) (Holds (ObjectOf g)) :=
  .ofValue (fun _ _ => decodeObject_eq_ok_iff) fun _ => decodeObject_ne_client

theorem decodes_listIn (g : Decoder α) : Decodes (listIn g) (Holds (ListOf g)) :=
  .ofValue (fun _ _ => decodeList_eq_ok_iff) fun _ => decodeList_ne_client

/-- Every body is a content. -/
theorem decodes_content : Decodes (fun r => pure r.body) fun body content => body = content where
  wire_eq _ _ := rfl
  eq_ok_iff r w content := by
    show Except.ok r.body = Except.ok content ↔ _
    rw [Except.ok.injEq]
  ne_client _ _ _ := nofun

end Client

end TypstLint.GitHub
