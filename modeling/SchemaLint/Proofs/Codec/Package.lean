import SchemaLint.Proofs.Codec.Values
import SchemaLint.Program.Reading

/-!
# The documents of functions and packages

A package whose numbers fit their machine words is written as a document that
reads as the package again. The text of a double is read by scaling its digits
with a rounded power of ten, which can miss the double by its last bit, so the
doubles among the constants are asked to be ones whose texts read back.
-/

namespace SchemaLint

open Json (Readable)

/-! ## Instructions -/

def Instruction.pos? : Instruction → Option Pos
  | .store _ _ pos | .mapUpdate _ _ _ pos | .ret _ pos | .panic _ pos
  | .go _ pos | .defer _ pos => some pos
  | .define _ | .jump _ | .branch .. | .runDefers => none

def Instruction.fits (instruction : Instruction) : Bool :=
  (Package.definedValue instruction ++ instruction.operands).all ValueId.fits &&
    instruction.successors.all (· < 2 ^ 64) && instruction.pos?.all Pos.fits

section

variable {depth : Nat}

private theorem Instruction.codes_tagged {op : String} {members : Members}
    {instruction : Instruction}
    (hdecoded : ofMembers? op members = some instruction)
    (hreadable : ∀ member ∈ members, Readable depth member.2)
    (hothers : members.all (·.1 != "op") = true) :
    Codes (depth + 1) decode? (.record (("op", .text op) :: members))
      instruction where
  decoded := by
    have hoperands : op ≠ "run_defers" := by
      rintro rfl
      cases hdecoded
    rw [decode?, tagged?_record hothers (.record hreadable),
      Option.bind_eq_bind, Option.bind_some]
    split
    · next hequal => cases hequal
    · next hequal => exact absurd (congrArg Prod.fst hequal) hoperands
    · next hequal =>
        cases hequal
        exact hdecoded
  readable := .record (List.forall_mem_cons.2 ⟨readable_text op, hreadable⟩)

theorem Instruction.codes {instruction : Instruction}
    (hfits : instruction.fits = true) :
    Codes (depth + 3) decode? instruction.encode instruction := by
  simp only [Instruction.fits, Bool.and_eq_true, List.all_append] at hfits
  obtain ⟨⟨⟨hdefined, hoperands⟩, htargets⟩, hposition⟩ := hfits
  have hvalue {x : ValueId} (hoperand : x ∈ instruction.operands) :
      Codes (depth + 2) ValueId.decode? x.encode x :=
    ValueId.codes (List.all_eq_true.1 hoperands x hoperand)
  have htarget {n : Nat} (hsuccessor : n ∈ instruction.successors) :
      Codes (depth + 2) Document.word64? (.nat n) n :=
    codes_word64 (of_decide_eq_true (List.all_eq_true.1 htargets n hsuccessor))
  have hpos {pos : Pos} (hgiven : instruction.pos? = some pos) :
      Codes (depth + 2) Pos.decode? pos.encode pos :=
    Pos.codes ((Option.all_eq_true _ _).1 hposition pos hgiven)
  cases instruction with
  | define x =>
      have hx :=
        @ValueId.codes (depth + 2) x
          (List.all_eq_true.1 hdefined x List.mem_cons_self)
      exact codes_tagged (read_part hx.decoded rfl) (by simp [hx.readable]) rfl
  | store addr val pos' =>
      have haddr := @hvalue addr (by simp [Instruction.operands])
      have hval := @hvalue val (by simp [Instruction.operands])
      have hpos := hpos rfl
      exact codes_tagged (read_part haddr.decoded <| read_part hval.decoded <|
        read_part hpos.decoded rfl)
        (by simp [haddr.readable, hval.readable, hpos.readable]) rfl
  | mapUpdate map key elem pos' =>
      have hmap := @hvalue map (by simp [Instruction.operands])
      have hkey := @hvalue key (by simp [Instruction.operands])
      have helem := @hvalue elem (by simp [Instruction.operands])
      have hpos := hpos rfl
      exact codes_tagged
        (read_part hmap.decoded <| read_part hkey.decoded <|
          read_part helem.decoded <| read_part hpos.decoded rfl)
        (by simp [hmap.readable, hkey.readable, helem.readable, hpos.readable])
          rfl
  | ret results pos' =>
      have hresults := @ValueId.codes_all (depth + 1) results hoperands
      have hpos := hpos rfl
      exact codes_tagged
        (read_part hresults.decoded <| read_part hpos.decoded rfl)
        (by simp [hresults.readable, hpos.readable]) rfl
  | jump block =>
      have hblock := @htarget block (by simp [successors])
      exact codes_tagged (read_part hblock.decoded rfl)
        (by simp [hblock.readable]) rfl
  | branch cond thenBlock elseBlock =>
      have hcond := @hvalue cond (by simp [Instruction.operands])
      have hthenBlock := @htarget thenBlock (by simp [successors])
      have helseBlock := @htarget elseBlock (by simp [successors])
      exact codes_tagged (read_part hcond.decoded <|
        read_part hthenBlock.decoded <| read_part helseBlock.decoded rfl)
        (by simp [hcond.readable, hthenBlock.readable, helseBlock.readable]) rfl
  | panic x pos' =>
      have hx := @hvalue x (by simp [Instruction.operands])
      have hpos := hpos rfl
      exact codes_tagged (read_part hx.decoded <| read_part hpos.decoded rfl)
        (by simp [hx.readable, hpos.readable]) rfl
  | go call pos' | defer call pos' =>
      have hcall := @Call.codes depth call hoperands
      have hpos := hpos rfl
      exact codes_tagged (read_part hcall.decoded <| read_part hpos.decoded rfl)
        (by simp [hcall.readable, hpos.readable]) rfl
  | runDefers => exact ⟨rfl, .record (by simp)⟩

/-! ## Functions -/

def Func.fits (f : Func) : Bool :=
  f.receiver.all TypeId.fits && f.signature.fits && f.params.all ValueId.fits &&
    f.pos.fits &&
    f.instructions.all Instruction.fits

theorem Block.codes {block : Block}
    (hfits : ∀ instruction ∈ block.instructions, instruction.fits = true) :
    Codes (depth + 5) decode? block.encode block := by
  have hinstructions : Codes (depth + 4) (Document.listOf? Instruction.decode?)
      _ block.instructions :=
    .list fun instruction hmember =>
      Instruction.codes (hfits instruction hmember)
  exact ⟨read_part rfl <| read_part hinstructions.decoded rfl,
    .record (List.forall_mem_singleton.2 hinstructions.readable)⟩

private theorem Func.codes_blocks {f : Func}
    (hfits : ∀ instruction ∈ f.instructions, instruction.fits = true) :
    Codes (depth + 6) (Document.nullable? (Document.listOf? Block.decode?))
      (.nullable (fun blocks => .list (blocks.map Block.encode)) f.blocks)
      f.blocks := by
  refine .nullable (fun blocks hgiven =>
    .list fun block hmember => Block.codes fun instruction hlisted => ?_) nofun
  have hbody : f.body = blocks := by
    rw [body, Option.mem_def.1 hgiven, Option.getD_some]
  exact hfits instruction (List.mem_flatMap.2 ⟨block, hbody ▸ hmember, hlisted⟩)

theorem Func.codes {f : Func} (hfits : f.fits = true) :
    Codes (depth + 7) decode? f.encode f := by
  simp only [Func.fits, Bool.and_eq_true] at hfits
  obtain ⟨⟨⟨⟨hreceiver, hsignature⟩, hparams⟩, hpos⟩, hinstructions⟩ := hfits
  have hpackage := @codes_nullableText (depth + 6) f.package
  have hreceiver : Codes (depth + 6) (Document.nullable? TypeId.decode?) _
      f.receiver :=
    .nullable (fun id hgiven =>
      TypeId.codes ((Option.all_eq_true _ _).1 hreceiver id hgiven)) nofun
  have hsignature := @TypeId.codes (depth + 6) _ hsignature
  have hparams := @ValueId.codes_all (depth + 5) _ hparams
  have hblocks := @codes_blocks depth f (List.all_eq_true.1 hinstructions)
  have hpos := @Pos.codes (depth + 6) _ hpos
  have hdoc := @codes_nullableText (depth + 6) f.doc
  constructor
  · exact read_part rfl <| read_part rfl <| read_part hpackage.decoded <|
      read_part hreceiver.decoded <|
      read_part hsignature.decoded <| read_part hparams.decoded <|
      read_part hblocks.decoded <| read_part hpos.decoded <|
      read_part hdoc.decoded rfl
  · refine .record ?_
    simp [hpackage.readable, hreceiver.readable, hsignature.readable,
      hparams.readable, hblocks.readable, hpos.readable, hdoc.readable]

/-! ## Packages -/

theorem PositionTable.codes {table : PositionTable}
    (hfits : table.entries.toList.all PositionEntry.fits = true) :
    Codes (depth + 3) decode? table.encode table := by
  have hfiles := @codes_texts (depth + 1) table.files.toList
  have hentries : Codes (depth + 2) (Document.listOf? PositionEntry.decode?) _
      table.entries.toList :=
    .list fun entry hmember =>
      PositionEntry.codes (List.all_eq_true.1 hfits entry hmember)
  exact ⟨read_part rfl <| read_part hfiles.decoded <|
      read_part hentries.decoded rfl,
    .record (by simp [hfiles.readable, hentries.readable])⟩

/-- The numbers of the package fit the machine words that hold them. -/
def Package.fits (p : Package) : Bool :=
  p.types.toList.all Ty.fits && p.values.toList.all Value.fits &&
    p.functions.toList.all Func.fits &&
    p.positions.entries.toList.all PositionEntry.fits

def Operation.float? : Operation → Option Decimal.Double
  | .const (.float x) => some x
  | _ => none

def Package.floats (p : Package) : List Decimal.Double :=
  p.values.toList.filterMap (·.operation.float?)

theorem Package.codes {p : Package} (hfits : p.fits = true)
    (hfloats : ∀ x ∈ p.floats, Json.ReadsBack x) :
    Codes (depth + 9) decode? p.encode p := by
  simp only [Package.fits, Bool.and_eq_true] at hfits
  obtain ⟨⟨⟨htypes, hvalues⟩, hfunctions⟩, hpositions⟩ := hfits
  have htypes : Codes (depth + 8) (Document.listOf? Ty.decode?) _
      p.types.toList :=
    .list fun type hmember => Ty.codes (List.all_eq_true.1 htypes type hmember)
  have hreadsBack {value : Value} (hmember : value ∈ p.values.toList)
      {x : Decimal.Double}
      (hfloat : value.operation = .const (.float x)) : Json.ReadsBack x :=
    hfloats x
      (List.mem_filterMap.2 ⟨value, hmember, by rw [hfloat, Operation.float?]⟩)
  have hvalues : Codes (depth + 8) (Document.listOf? Value.decode?) _
      p.values.toList :=
    .list fun value hmember => Value.codes
      (List.all_eq_true.1 hvalues value hmember)
      fun _ => hreadsBack hmember
  have hfunctions : Codes (depth + 8) (Document.listOf? Func.decode?) _
      p.functions.toList :=
    .list fun f hmember => Func.codes (List.all_eq_true.1 hfunctions f hmember)
  have hpositions := @PositionTable.codes (depth + 5) p.positions hpositions
  constructor
  · exact read_part rfl <| read_part rfl <| read_part htypes.decoded <|
      read_part hvalues.decoded <|
      read_part hfunctions.decoded <| read_part hpositions.decoded rfl
  · refine .record ?_
    simp [htypes.readable, hvalues.readable, hfunctions.readable,
      hpositions.readable]

end

/-- A valid package is read back from the text that is written for it. -/
theorem package_text_round_trips {p : Package} (hvalid : p.validate = .ok ())
    (hfits : p.fits = true) (hfloats : ∀ x ∈ p.floats, Json.ReadsBack x) :
    Package.ofText .json p.toText = .ok p := by
  -- The document is nine levels deep, well within the limit of the reader.
  have hcodes := @Package.codes 118 p hfits hfloats
  have hparsed : Format.json.parse? p.toText = some p.encode :=
    Json.parse?_write Json.Layout.indented_spaced hcodes.readable
  rw [Package.ofText, hparsed, Option.bind_some, hcodes.decoded]
  change (p.validate >>= fun _ => pure p) = .ok p
  rw [hvalid]
  rfl

/-- A package with the extreme numbers of every width, absent and present parts,
and texts that are escaped. -/
def almanac : Package where
  path := "sky/almanac"
  types :=
    #[.basic .float64, .array ⟨0⟩ (2 ^ 64 - 1), .named (some "sky/é") "Day" ⟨1⟩,
      .struct [⟨"Day", ⟨2⟩, true⟩, ⟨"rise", ⟨0⟩, false⟩],
      .signature [⟨0⟩] [] true, .named none "error" ⟨3⟩]
  values := #[
    ⟨.const (.float (.finite false 7205759403792794 (-56))), ⟨0⟩, ⟨0⟩, none,
      some "a \"tenth\"\n"⟩,
    ⟨.const (.int (-2 ^ 63)), ⟨0⟩, .unknown, none, none⟩,
    ⟨.const .nil, ⟨5⟩, ⟨2 ^ 32 - 1⟩, none, none⟩,
    ⟨.function ⟨1⟩, ⟨4⟩, ⟨1⟩, none, none⟩,
    ⟨.parameter 0, ⟨0⟩, ⟨1⟩, some ⟨0⟩, some "day"⟩,
    ⟨.call ⟨⟨3⟩, some "At", [⟨4⟩, ⟨0⟩]⟩, ⟨0⟩, ⟨1⟩, some ⟨0⟩, none⟩]
  functions := #[
    ⟨"Rise", some "sky/almanac", some ⟨2⟩, ⟨4⟩, [⟨4⟩], some [
      ⟨[.define ⟨5⟩, .mapUpdate ⟨5⟩ ⟨1⟩ ⟨0⟩ ⟨1⟩, .branch ⟨4⟩ 0 1]⟩,
      ⟨[.defer ⟨⟨3⟩, none, []⟩ ⟨1⟩, .runDefers, .ret [] .unknown]⟩], ⟨1⟩,
      some "When the sun is up.\tMostly."⟩,
    ⟨"Set", none, none, ⟨4⟩, [], none, .unknown, none⟩]
  positions := ⟨#["sky\\rise.go"], #[⟨0, 1, 2 ^ 32 - 1⟩, ⟨0, 2, 1⟩]⟩

theorem almanac_text_round_trips :
    almanac.validate = .ok () ∧ almanac.fits = true ∧
      almanac.floats = [.finite false 7205759403792794 (-56)] ∧
      Package.ofText .json almanac.toText = .ok almanac := by
  refine ⟨by decide, by decide, by decide,
    package_text_round_trips (by decide) (by decide) ?_⟩
  decide +kernel

-- The third double after a tenth is written as `0.10000000000000005`, and this
-- text is read as a neighbour of it.
example : ¬ Json.ReadsBack (.finite false 7205759403792797 (-56)) := by
  decide +kernel

end SchemaLint
