import Recap.Blaze.Tree

/-! The calls that build a tree leave the builder with the document of that tree. -/

namespace Recap.Blaze

namespace Json

/-- Add values one after another. -/
def addAll (parent : Json) (members : List (Bytes × Json)) : Json :=
  members.foldl (fun parent (name, value) => parent.add name value) parent

/-- Members are added to an object behind those that it has. -/
theorem addAll_object (held added : List (Bytes × Json)) :
    addAll (object held) added = object (held ++ added) := by
  -- The induction is on what is added, so what is held stays quantified over.
  induction added generalizing held with
  | nil => rw [List.append_nil]; rfl
  | cons member rest ih =>
    have first : addAll (object held) (member :: rest) = addAll (object (held ++ [member])) rest := rfl
    rw [first, ih, List.append_assoc, List.singleton_append]

/-- An array takes the values and drops their names. -/
theorem addAll_array (held : List Json) (added : List (Bytes × Json)) :
    addAll (array held) added = array (held ++ added.map Prod.snd) := by
  induction added generalizing held with
  | nil => rw [List.map_nil, List.append_nil]; rfl
  | cons member rest ih =>
    have first : addAll (array held) (member :: rest) = addAll (array (held ++ [member.2])) rest := rfl
    rw [first, ih, List.map_cons, List.append_assoc, List.singleton_append]

/-- Changing the first member of a name twice is changing it once by both changes. -/
theorem modifyFirst_modifyFirst (name : Bytes) (first second : Json → Json)
    (members : List (Bytes × Json)) :
    modifyFirst name second (modifyFirst name first members) =
      modifyFirst name (fun value => second (first value)) members := by
  induction members with
  | nil => rfl
  | cons member rest ih =>
    obtain ⟨key, held⟩ := member
    -- The name is compared the same way on every pass.
    by_cases same : key = name
    · simp only [modifyFirst, if_pos same]
    · simp only [modifyFirst, if_neg same, ih]

/-- Changing a content twice is changing it once by both changes. -/
theorem modifyContent_modifyContent (first second : Json → Json) (value : Json) :
    modifyContent second (modifyContent first value) =
      modifyContent (fun content => second (first content)) value := by
  cases value with
  | object members => simp only [modifyContent, modifyFirst_modifyFirst]
  | _ => rfl

private theorem modifyLast_twice {α : Type} (first second : α → α) (items : List α) :
    (items.modifyLast first).modifyLast second = items.modifyLast fun item => second (first item) := by
  -- Only the last item matters, so the list is taken apart at its end.
  rcases List.eq_nil_or_concat items with rfl | ⟨front, last, rfl⟩
  · rfl
  · simp only [List.concat_eq_append, List.modifyLast_concat]

/-- Changing the last value twice is changing it once by both changes. -/
theorem modifyLast_modifyLast (first second : Json → Json) (value : Json) :
    modifyLast second (modifyLast first value) =
      modifyLast (fun held => second (first held)) value := by
  cases value with
  | object members => simp only [modifyLast, modifyLast_twice]
  | array items => simp only [modifyLast, modifyLast_twice]
  | _ => rfl

/-- Changing the container at a depth twice is changing it once by both changes. -/
theorem modifyAt_modifyAt (first second : Json → Json) (depth : Nat) (document : Json) :
    modifyAt second depth (modifyAt first depth document) =
      modifyAt (fun parent => second (first parent)) depth document := by
  induction depth generalizing document with
  | zero => rfl
  | succ depth ih =>
    simp only [modifyAt, modifyLast_modifyLast, modifyContent_modifyContent, ih]

private theorem modifyFirst_same (name : Bytes) (members : List (Bytes × Json)) :
    modifyFirst name (fun value => value) members = members := by
  induction members with
  | nil => rfl
  | cons member rest ih =>
    obtain ⟨key, held⟩ := member
    rw [modifyFirst, ih, ite_self]

private theorem modifyLast_same {α : Type} (items : List α) :
    items.modifyLast (fun item => item) = items := by
  rcases List.eq_nil_or_concat items with rfl | ⟨front, last, rfl⟩
  · rfl
  · rw [List.concat_eq_append, List.modifyLast_concat]

/-- A change that changes nothing changes nothing at any depth. -/
theorem modifyAt_same (depth : Nat) (document : Json) :
    modifyAt (fun parent => parent) depth document = document := by
  induction depth generalizing document with
  | zero => rfl
  | succ depth ih =>
    -- Down to the container at the depth, every value on the way is put back as it was.
    have deeper : modifyAt (fun parent => parent) depth = fun parent => parent := funext ih
    have content : modifyContent (fun parent => parent) = fun value => value := by
      funext value
      cases value with
      | object members => rw [modifyContent, modifyFirst_same]
      | _ => rfl
    rw [modifyAt, deeper, content]
    cases document with
    | object members =>
      rw [modifyLast]
      congr 1
      exact modifyLast_same members
    | array items => rw [modifyLast, modifyLast_same]
    | _ => rfl

/-- The container one level deeper is the content of the last value of the one above it. -/
theorem modifyAt_succ (change : Json → Json) (depth : Nat) (document : Json) :
    modifyAt change (depth + 1) document =
      modifyAt (modifyLast (modifyContent change)) depth document := by
  induction depth generalizing document with
  | zero => rfl
  | succ depth ih =>
    have deeper : modifyAt change (depth + 1) =
        modifyAt (modifyLast (modifyContent change)) depth := funext ih
    rw [modifyAt, deeper]
    rfl

/-- Changing the content of the value just added is adding it with that content. -/
theorem modifyLast_add (change : Json → Json) (parent : Json) (name : Bytes) (value : Json) :
    modifyLast (modifyContent change) (parent.add name value) =
      parent.add name (modifyContent change value) := by
  cases parent with
  | object members => simp only [add, addMember, modifyLast, List.modifyLast_concat]
  | array items => simp only [add, pushBack, modifyLast, List.modifyLast_concat]
  | _ => rfl

end Json

namespace Packet

open Json

/-- Calls in sequence. -/
theorem calls_append (packet : Packet) (first second : List Call) :
    packet.calls (first ++ second) = (packet.calls first).calls second :=
  List.foldl_append

/-- A container that is pushed, filled, and popped is added with what it was filled with. -/
theorem calls_container (packet : Packet) (label : Bytes) (value : Json) (filling : List Call)
    (added : List (Bytes × Json))
    (fills : ∀ inner : Packet, inner.calls filling =
      { inner with document := modifyAt (·.addAll added) inner.depth inner.document }) :
    (packet.push label value).calls (filling ++ [.pop]) =
      packet.addMember label (modifyContent (·.addAll added) value) := by
  rw [calls_append, fills]
  -- One level down and back up again leaves a single change where the packet points.
  simp only [calls, List.foldl_cons, List.foldl_nil, call, push, addMember, Nat.add_sub_cancel,
    modifyAt_succ, modifyAt_modifyAt, modifyLast_add]

/-- The members that stand in front of the content of a container have other names. -/
private theorem content_name :
    ascii "_Type" ≠ ascii "_Content" ∧ ascii "_ListType" ≠ ascii "_Content" ∧
      ascii "_KeyType" ≠ ascii "_Content" ∧ ascii "_ValueType" ≠ ascii "_Content" ∧
      ascii "_AddressMember" ≠ ascii "_Content" := by decide

mutual

/-- The calls for a value add its document. -/
theorem calls_value (packet : Packet) (label : Bytes) (value : Value) :
    packet.calls (value.calls label) = packet.addMember label value.document := by
  obtain ⟨type, listType, keyType, valueType, addressMember⟩ := content_name
  -- A container is pushed empty, and its content is changed by what it is filled with.
  match value with
  | .integer _ | .string _ | .blob _ | .objectType _ _ | .objectId _ _ _ => rfl
  | .struct fields =>
    refine (packet.calls_container label _ fields.calls fields.document
      fun inner => inner.calls_members fields).trans ?_
    simp only [Value.document, modifyContent, modifyFirst, if_neg type, if_true, addAll_object,
      List.nil_append]
  | .list items elements =>
    refine (packet.calls_container label _ elements.calls elements.document
      fun inner => inner.calls_members elements).trans ?_
    simp only [Value.document, modifyContent, modifyFirst, if_neg type, if_neg listType, if_true,
      addAll_array, List.nil_append]
  | .integerList elements =>
    refine (packet.calls_container label _ elements.calls elements.document
      fun inner => inner.calls_members elements).trans ?_
    simp only [Value.document, modifyContent, modifyFirst, if_neg type, if_true, addAll_array,
      List.nil_append]
  | .map keys values entries =>
    refine (packet.calls_container label _ entries.calls entries.document
      fun inner => inner.calls_members entries).trans ?_
    simp only [Value.document, modifyContent, modifyFirst, if_neg type, if_neg keyType,
      if_neg valueType, if_true, addAll_object, List.nil_append]
  | .union member content =>
    refine (packet.calls_container label _ content.calls content.document
      fun inner => inner.calls_members content).trans ?_
    simp only [Value.document, modifyContent, modifyFirst, if_neg type, if_neg addressMember,
      if_true, addAll_object, List.nil_append]

/-- The calls for values under names add their documents in order. -/
theorem calls_members (packet : Packet) (members : Members) :
    packet.calls members.calls =
      { packet with
        document := modifyAt (·.addAll members.document) packet.depth packet.document } := by
  match members with
  | .nil =>
    have same : (fun parent : Json => parent.addAll []) = fun parent => parent := rfl
    rw [Members.document, same, modifyAt_same]
    rfl
  | .cons name value rest =>
    rw [Members.calls, calls_append, calls_value, calls_members, addMember, modifyAt_modifyAt]
    rfl

end

/-- Building a tree from nothing gives the document of the tree. -/
theorem calls_empty (members : Members) :
    (Packet.empty.calls members.calls) = ⟨.object members.document, 0⟩ := by
  rw [calls_members]
  simp only [Packet.empty, modifyAt, addAll_object, List.nil_append]

end Packet
end Recap.Blaze
