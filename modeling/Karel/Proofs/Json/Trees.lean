import Karel.Proofs.Json.Unambiguity

/-!
# One tree for each JSON text

A tree is known from its JSON text, whether a program has it or not: with any texts as names, any
callables in its statements, and any counts and lines.

## Main results

- `Statement.eq_of_toJson_eq`, `Arms.eq_of_toJson_eq`, `Block.eq_of_itemsToJson_eq` — the parts of a
  tree are known from their JSON values
- `Block.compact_toJson_eq_iff` — a tree is known from its JSON text
-/

namespace Karel

/-- A callable is known from its JSON value. The repetition has no name in it. -/
theorem Callable.eq_of_toJson_eq {first second : Callable} (h : first.toJson = second.toJson) :
    first = second := by
  cases first <;> cases second <;> simp_all [toJson]

/-- A block has one member only, so it is known from the JSON values of its statements. -/
theorem Json.ofBlock_inj {first second : List Json} :
    ofBlock first = ofBlock second ↔ first = second := by
  simp [ofBlock]

mutual

/-- A statement is known from its JSON value: the type tells its form, and the other fields tell the
    rest. -/
theorem Statement.eq_of_toJson_eq : (first second : Statement) →
    first.toJson = second.toJson → first = second
  | .command callable line, second, h => by
    cases second with
    | command callable' line' =>
      simp only [Statement.toJson, Json.object.injEq, List.cons.injEq, Prod.mk.injEq,
        Json.number.injEq, true_and, and_true] at h
      obtain ⟨hcallable, rfl⟩ := h
      rw [Callable.eq_of_toJson_eq hcallable]
    | _ => simp [Statement.toJson] at h
  | .call name line, second, h => by
    cases second with
    | call name' line' => simpa [Statement.toJson] using h
    | _ => simp [Statement.toJson] at h
  | .doTimes callable count body line, second, h => by
    cases second with
    | doTimes callable' count' body' line' =>
      simp only [Statement.toJson, Json.object.injEq, List.cons.injEq, Prod.mk.injEq,
        Json.number.injEq, Json.ofBlock_inj, true_and, and_true] at h
      obtain ⟨hcallable, rfl, hbody, rfl⟩ := h
      rw [Callable.eq_of_toJson_eq hcallable, Block.eq_of_itemsToJson_eq body body' hbody]
    | _ => simp [Statement.toJson] at h
  | .ifElse callable body arms line, second, h => by
    cases second with
    | ifElse callable' body' arms' line' =>
      simp only [Statement.toJson, Json.object.injEq, List.cons.injEq, Prod.mk.injEq,
        Json.number.injEq, Json.array.injEq, Json.ofBlock_inj, true_and, and_true] at h
      obtain ⟨hcallable, hbody, helifs, hotherwise, rfl⟩ := h
      rw [Callable.eq_of_toJson_eq hcallable, Block.eq_of_itemsToJson_eq body body' hbody,
        Arms.eq_of_toJson_eq arms arms' helifs hotherwise]
    | _ => simp [Statement.toJson] at h
  | .whileDo callable body line, second, h => by
    cases second with
    | whileDo callable' body' line' =>
      simp only [Statement.toJson, Json.object.injEq, List.cons.injEq, Prod.mk.injEq,
        Json.number.injEq, Json.ofBlock_inj, true_and, and_true] at h
      obtain ⟨hcallable, hbody, rfl⟩ := h
      rw [Callable.eq_of_toJson_eq hcallable, Block.eq_of_itemsToJson_eq body body' hbody]
    | _ => simp [Statement.toJson] at h
  | .define name body line, second, h => by
    cases second with
    | define name' body' line' =>
      simp only [Statement.toJson, Json.object.injEq, List.cons.injEq, Prod.mk.injEq,
        Json.number.injEq, Json.string.injEq, Json.ofBlock_inj, true_and, and_true] at h
      obtain ⟨rfl, hbody, rfl⟩ := h
      rw [Block.eq_of_itemsToJson_eq body body' hbody]
    | _ => simp [Statement.toJson] at h

/-- Arms are known from the list of their `elif` arms and from their `else` arm, which is `null` only
    if there is none. -/
theorem Arms.eq_of_toJson_eq : (first second : Arms) →
    first.elifsToJson = second.elifsToJson → first.otherwiseToJson = second.otherwiseToJson →
    first = second
  | .done, second, helifs, hotherwise => by
    cases second with
    | done => rfl
    | otherwise body => cases hotherwise
    | elif callable line body next => cases helifs
  | .otherwise body, second, helifs, hotherwise => by
    cases second with
    | done => cases hotherwise
    | otherwise body' =>
      rw [Block.eq_of_itemsToJson_eq body body' (Json.ofBlock_inj.mp hotherwise)]
    | elif callable line body' next => cases helifs
  | .elif callable line body next, second, helifs, hotherwise => by
    cases second with
    | done => cases helifs
    | otherwise body' => cases helifs
    | elif callable' line' body' next' =>
      simp only [Arms.elifsToJson, List.cons.injEq, Json.object.injEq, Prod.mk.injEq,
        Json.number.injEq, Json.ofBlock_inj, true_and, and_true] at helifs
      obtain ⟨⟨hcallable, rfl, hbody⟩, hnext⟩ := helifs
      rw [Callable.eq_of_toJson_eq hcallable, Block.eq_of_itemsToJson_eq body body' hbody,
        Arms.eq_of_toJson_eq next next' hnext hotherwise]

/-- A block is known from the JSON values of its statements. -/
theorem Block.eq_of_itemsToJson_eq : (first second : List Statement) →
    Block.itemsToJson first = Block.itemsToJson second → first = second
  | [], [], _ => rfl
  | [], statement :: rest, h => by cases h
  | statement :: rest, [], h => by cases h
  | statement :: rest, statement' :: rest', h => by
    obtain ⟨hstatement, hrest⟩ := List.cons.inj h
    rw [Statement.eq_of_toJson_eq statement statement' hstatement,
      Block.eq_of_itemsToJson_eq rest rest' hrest]

end

/-- Two trees have one JSON text just if they are equal, lines, counts and callables included. -/
theorem Block.compact_toJson_eq_iff (first second : Block) :
    first.toJson.compact = second.toJson.compact ↔ first = second := by
  constructor
  · intro h
    have hjson : first.toJson = second.toJson := Json.eq_of_compact_eq h
    exact Block.eq_of_itemsToJson_eq first second (Json.ofBlock_inj.mp hjson)
  · rintro rfl
    rfl

end Karel
