import SchemaLint.Proofs.Codec.Parts

/-!
# The documents of operations and values
-/

namespace SchemaLint

open Json (Readable)

/-! ## Operations -/

def Constant.fits : Constant → Bool
  | .int n => -2 ^ 63 ≤ n && n < 2 ^ 63
  | _ => true

def Operation.fits (operation : Operation) : Bool :=
  operation.operands.all ValueId.fits &&
    match operation with
    | .const constant => constant.fits
    | .parameter number | .freeVar number | .fieldAddr _ number
    | .field _ number | .extract _ number => number < 2 ^ 64
    | .function func => func.fits
    | .typeAssert _ asserted _ => asserted.fits
    | _ => true

section

variable {depth : Nat}

theorem Constant.codes {constant : Constant} (hfits : constant.fits = true)
    (hfloat : ∀ x, constant = .float x → Json.ReadsBack x) :
    Codes (depth + 1) ofSettled? constant.encode constant := by
  cases constant with
  | bool b => exact ⟨rfl, .record (by simp)⟩
  | int n =>
      simp only [Constant.fits, Bool.and_eq_true, decide_eq_true_eq] at hfits
      have hpayload : (Document.int n).int64? = some n := if_pos hfits
      refine ⟨?_,
        .record (List.forall_mem_singleton.2 (.scalar ⟨hfits.1, by omega⟩))⟩
      rw [show ofSettled? (Constant.int n).encode =
          (Document.int n).int64?.map int from rfl, hpayload, Option.map_some]
  | float x =>
      exact ⟨rfl,
        .record (List.forall_mem_singleton.2 (.scalar (hfloat x rfl)))⟩
  | string s => exact ⟨rfl, .record (by simp)⟩
  | nil => exact ⟨rfl, readable_text "nil"⟩

private theorem UnaryOp.ofSettled?_label (operator : UnaryOp) :
    ofSettled? (.text operator.label) = some operator := by
  cases operator <;> rfl

private theorem BinaryOp.ofSettled?_label (operator : BinaryOp) :
    ofSettled? (.text operator.label) = some operator := by
  cases operator <;> rfl

theorem Call.codes {call : Call}
    (hfits : call.operands.all ValueId.fits = true) :
    Codes (depth + 2) ofSettled? call.encode call := by
  simp only [Call.operands, List.all_cons, Bool.and_eq_true] at hfits
  have htarget := @ValueId.codes (depth + 1) _ hfits.1
  have hmethod := @codes_nullableText (depth + 1) call.method
  have hargs := @ValueId.codes_all depth _ hfits.2
  exact ⟨read_part rfl <| read_part htarget.decoded <|
      read_part hmethod.decoded <| read_part hargs.decoded rfl,
    .record (by simp [htarget.readable, hmethod.readable, hargs.readable])⟩

theorem read_tag {d : Option (Option String)} {tag : String}
    {f : String → Option β} {r : Option β} (hfirst : d = some (some tag))
    (hrest : f tag = r) : (d >>= fun tag => tag >>= f) = r :=
  read_part hfirst (read_part rfl hrest)

structure Operation.Coded (depth : Nat) (operation : Operation) : Prop where
  decoded : ofMembers? operation.members = some operation
  readable : ∀ member ∈ operation.members, Readable depth member.2

theorem Operation.coded {operation : Operation} (hfits : operation.fits = true)
    (hfloat : ∀ x, operation = .const (.float x) → Json.ReadsBack x) :
    operation.Coded (depth + 2) := by
  simp only [Operation.fits, Bool.and_eq_true] at hfits
  obtain ⟨hoperands, hnumber⟩ := hfits
  have hvalue {x : ValueId} (hoperand : x ∈ operation.operands) :
      Codes (depth + 2) ValueId.decode? x.encode x :=
    ValueId.codes (List.all_eq_true.1 hoperands x hoperand)
  cases operation with
  | const constant =>
      have hconstant :=
        @Constant.codes (depth + 1) constant hnumber fun x hsame =>
          hfloat x (by rw [hsame])
      exact ⟨read_tag rfl <| read_part hconstant.decoded rfl,
        by simp [Operation.members, hconstant.readable]⟩
  | parameter number' | freeVar number' =>
      have hnumber := @codes_word64 (depth + 2) _ (of_decide_eq_true hnumber)
      exact ⟨read_tag rfl <| read_part hnumber.decoded rfl,
        by simp [Operation.members, hnumber.readable]⟩
  | global _ | builtin _ | alloc _ => exact ⟨rfl, by simp [Operation.members]⟩
  | function func =>
      have hfunc := @FuncId.codes (depth + 2) _ hnumber
      exact ⟨read_tag rfl <| read_part hfunc.decoded rfl,
        by simp [Operation.members, hfunc.readable]⟩
  | makeInterface x | changeType x | convert x =>
      have hx := @hvalue x (by simp [Operation.operands])
      exact ⟨read_tag rfl <| read_part hx.decoded rfl,
        by simp [Operation.members, hx.readable]⟩
  | makeClosure func bindings =>
      simp only [Operation.operands, List.all_cons,
        Bool.and_eq_true] at hoperands
      have hfunc := @hvalue func (by simp [Operation.operands])
      have hbindings := @ValueId.codes_all (depth + 1) bindings hoperands.2
      exact ⟨read_tag rfl <| read_part hfunc.decoded <|
          read_part hbindings.decoded rfl,
        by simp [Operation.members, hfunc.readable, hbindings.readable]⟩
  | makeMap reserve =>
      have hreserve : Codes (depth + 2) (Document.nullable? ValueId.decode?) _
          reserve :=
        .nullable (fun x hgiven => hvalue (Option.mem_toList.2 hgiven)) nofun
      exact ⟨read_tag rfl <| read_part hreserve.decoded rfl,
        by simp [Operation.members, hreserve.readable]⟩
  | makeSlice length capacity =>
      have hlength := @hvalue length (by simp [Operation.operands])
      have hcapacity := @hvalue capacity (by simp [Operation.operands])
      exact ⟨read_tag rfl <| read_part hlength.decoded <|
          read_part hcapacity.decoded rfl,
        by simp [Operation.members, hlength.readable, hcapacity.readable]⟩
  | unary operator x =>
      have hx := @hvalue x (by simp [Operation.operands])
      exact ⟨read_tag rfl <| read_part (UnaryOp.ofSettled?_label operator) <|
          read_part hx.decoded rfl, by simp [Operation.members, hx.readable]⟩
  | binary operator x y =>
      have hx := @hvalue x (by simp [Operation.operands])
      have hy := @hvalue y (by simp [Operation.operands])
      exact ⟨read_tag rfl <| read_part (BinaryOp.ofSettled?_label operator) <|
          read_part hx.decoded <| read_part hy.decoded rfl,
        by simp [Operation.members, hx.readable, hy.readable]⟩
  | fieldAddr x number' | field x number' =>
      have hx := @hvalue x (by simp [Operation.operands])
      have hnumber := @codes_word64 (depth + 2) _ (of_decide_eq_true hnumber)
      exact ⟨read_tag rfl <| read_part hx.decoded <|
          read_part hnumber.decoded rfl,
        by simp [Operation.members, hx.readable, hnumber.readable]⟩
  | indexAddr x key | index x key =>
      have hx := @hvalue x (by simp [Operation.operands])
      have hkey := @hvalue key (by simp [Operation.operands])
      exact ⟨read_tag rfl <| read_part hx.decoded <| read_part hkey.decoded rfl,
        by simp [Operation.members, hx.readable, hkey.readable]⟩
  | lookup x key commaOk =>
      have hx := @hvalue x (by simp [Operation.operands])
      have hkey := @hvalue key (by simp [Operation.operands])
      exact ⟨read_tag rfl <| read_part hx.decoded <| read_part hkey.decoded <|
          read_part rfl rfl,
        by simp [Operation.members, hx.readable, hkey.readable]⟩
  | extract tuple number' =>
      have htuple := @hvalue tuple (by simp [Operation.operands])
      have hnumber := @codes_word64 (depth + 2) _ (of_decide_eq_true hnumber)
      exact ⟨read_tag rfl <| read_part htuple.decoded <|
          read_part hnumber.decoded rfl,
        by simp [Operation.members, htuple.readable, hnumber.readable]⟩
  | typeAssert x asserted commaOk =>
      have hx := @hvalue x (by simp [Operation.operands])
      have hasserted := @TypeId.codes (depth + 2) _ hnumber
      exact ⟨read_tag rfl <| read_part hx.decoded <|
          read_part hasserted.decoded <| read_part rfl rfl,
        by simp [Operation.members, hx.readable, hasserted.readable]⟩
  | phi edges =>
      have hedges := @ValueId.codes_all (depth + 1) edges hoperands
      exact ⟨read_tag rfl <| read_part hedges.decoded rfl,
        by simp [Operation.members, hedges.readable]⟩
  | call invocation =>
      have hinvocation := @Call.codes depth invocation hoperands
      exact ⟨read_tag rfl <| read_part hinvocation.decoded rfl,
        by simp [Operation.members, hinvocation.readable]⟩

/-! ## Values -/

theorem Operation.members_foreign (operation : Operation) :
    operation.members.all (fun (name, _) => !Value.ownNames.contains name) =
      true := by
  cases operation <;> rfl

def Value.fits (value : Value) : Bool :=
  value.operation.fits && value.type.fits && value.pos.fits &&
    value.parent.all FuncId.fits

def Value.ownMembers (value : Value) : Members :=
  [("ty", value.type.encode), ("pos", value.pos.encode),
    ("parent", .nullable FuncId.encode value.parent)] ++
    value.name.toList.map fun name => ("debug_name", .text name)

private theorem Value.find?_own (value : Value) {name : String}
    (hown : ownNames.contains name = true) :
    Members.find? (value.operation.members ++ value.ownMembers) name =
      Members.find? value.ownMembers name := by
  have hnone : value.operation.members.filter (·.1 == name) = [] := by
    refine List.filter_eq_nil_iff.2 fun member hlisted hsame => ?_
    have hforeign : (!ownNames.contains member.1) = true :=
      List.all_eq_true.1 value.operation.members_foreign member hlisted
    rw [beq_iff_eq.1 hsame, hown] at hforeign
    cases hforeign
  rw [Members.find?, List.filter_append, hnone, List.nil_append, Members.find?]

private theorem Value.filter_foreign (value : Value) :
    (value.operation.members ++ value.ownMembers).filter
        (fun (name, _) => !ownNames.contains name) =
      value.operation.members := by
  have hown : value.ownMembers.filter
        (fun (name, _) => !ownNames.contains name) = [] := by
    unfold ownMembers
    cases value.name <;> rfl
  have hforeign : value.operation.members.filter
        (fun (name, _) => !ownNames.contains name) = value.operation.members :=
    List.filter_eq_self.2 (List.all_eq_true.1 value.operation.members_foreign)
  rw [List.filter_append, hown, hforeign, List.append_nil]

theorem Value.find?_encoded (value : Value) :
    let members := value.operation.members ++ value.ownMembers
    members.find? "ty" = some (some value.type.encode) ∧
      members.find? "pos" = some (some value.pos.encode) ∧
      members.find? "parent" =
        some (some (.nullable FuncId.encode value.parent)) ∧
      members.find? "debug_name" = some (value.name.map Document.text) := by
  refine ⟨?_, ?_, ?_, ?_⟩
  all_goals
    rw [value.find?_own rfl]
    unfold ownMembers
    cases value.name <;> rfl

theorem Value.codes {value : Value} (hfits : value.fits = true)
    (hfloat : ∀ x, value.operation = .const (.float x) → Json.ReadsBack x) :
    Codes (depth + 3) decode? value.encode value := by
  simp only [Value.fits, Bool.and_eq_true] at hfits
  obtain ⟨⟨⟨hoperation, htype⟩, hpos⟩, hparent⟩ := hfits
  have hoperation := @Operation.coded depth _ hoperation hfloat
  have htype := @TypeId.codes (depth + 2) _ htype
  have hpos := @Pos.codes (depth + 2) _ hpos
  have hparent : Codes (depth + 2) (Document.nullable? FuncId.decode?) _
      value.parent :=
    .nullable (fun id hgiven =>
      FuncId.codes ((Option.all_eq_true _ _).1 hparent id hgiven)) nofun
  have hshape : value.encode =
      .record (value.operation.members ++ value.ownMembers) := by
    rw [encode, List.append_assoc]
    rfl
  rw [hshape]
  constructor
  · obtain ⟨hhasType, hhasPos, hhasParent, hhasName⟩ := value.find?_encoded
    have hsettled := Json.Readable.members (.record hoperation.readable)
    have hname :
        Members.optional (value.operation.members ++ value.ownMembers)
          "debug_name" Document.text? =
        some value.name := by
      rw [Members.optional, hhasName]
      cases value.name <;> rfl
    simp only [decode?, Document.members?, filter_foreign, hsettled,
      hoperation.decoded, Members.required, Members.pos, Members.defaulted,
      hhasType, hhasPos, htype.decoded, hpos.decoded, hname,
      Option.bind_eq_bind, Option.bind_some]
    rw [Members.optional, hhasParent]
    simp [hparent.decoded]
  · have hown : ∀ member ∈ value.ownMembers, Readable (depth + 2) member.2 := by
      unfold ownMembers
      cases value.name <;>
        simp [htype.readable, hpos.readable, hparent.readable]
    exact .record (List.forall_mem_append.2 ⟨hoperation.readable, hown⟩)

end

end SchemaLint
