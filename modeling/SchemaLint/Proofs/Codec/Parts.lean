import SchemaLint.Proofs.Json.RoundTrip
import SchemaLint.Program.Codec
import SchemaLint.Program.Validity

/-!
# The documents of the parts of a package

Each part of a package whose numbers fit the machine words that hold them has a
document that is readable and decoded as the part itself. Tagged records are
settled on the way, which leaves a readable document as it is.
-/

namespace SchemaLint

open Json (Readable)

/-! ## Documents -/

namespace Document

theorem settleItems?_eq {items : List Document}
    (heach : ∀ item ∈ items, item.settle? = some item) :
    settleItems? items = some items := by
  induction items with
  | nil => rfl
  | cons item items ih =>
      rw [settleItems?, heach item List.mem_cons_self,
        ih fun item hlater => heach item (List.mem_cons_of_mem _ hlater)]
      rfl

theorem settleMembers?_eq {members : Members}
    (heach : ∀ member ∈ members, member.2.settle? = some member.2) :
    settleMembers? members = some members := by
  induction members with
  | nil => rfl
  | cons member members ih =>
      obtain ⟨name, item⟩ := member
      rw [settleMembers?, heach (name, item) List.mem_cons_self,
        ih fun member hlater => heach member (List.mem_cons_of_mem _ hlater)]
      rfl

end Document

theorem Json.Readable.settle? {depth : Nat} {document : Document}
    (hreadable : Readable depth document) :
    document.settle? = some document := by
  induction hreadable with
  | @scalar _ value hlegible =>
      cases value with
      | unreadable => exact hlegible.elim
      | _ => rfl
  | list _ ih =>
      rw [Document.settle?, Document.settleItems?_eq ih, Option.map_some]
  | record _ ih =>
      rw [Document.settle?, Document.settleMembers?_eq ih, Option.map_some]

structure Codes (depth : Nat) (decode : Document → Option α)
    (document : Document) (a : α) : Prop where
  decoded : decode document = some a
  readable : Readable depth document

section

variable {depth : Nat}

theorem Codes.map {decode : Document → Option α} {document : Document} {a : α}
    (hcodes : Codes depth decode document a) (f : α → β) :
    Codes depth (fun document => (decode document).map f) document (f a) :=
  ⟨by rw [hcodes.decoded, Option.map_some], hcodes.readable⟩

@[simp] theorem readable_text (s : String) : Readable depth (.text s) :=
  .scalar trivial

@[simp] theorem readable_bool (b : Bool) : Readable depth (.bool b) :=
  .scalar trivial

theorem readable_nat {n : Nat} (hbound : n < 2 ^ 64) :
    Readable depth (.nat n) :=
  .scalar ⟨by omega, by omega⟩

theorem codes_word32 {n : Nat} (hbound : n < 2 ^ 32) :
    Codes depth Document.word32? (.nat n) n :=
  ⟨if_pos hbound, readable_nat (by omega)⟩

theorem codes_word64 {n : Nat} (hbound : n < 2 ^ 64) :
    Codes depth Document.word64? (.nat n) n :=
  ⟨if_pos hbound, readable_nat hbound⟩

theorem Codes.list {decode : Document → Option α} {encode : α → Document}
    {items : List α} (heach : ∀ a ∈ items, Codes depth decode (encode a) a) :
    Codes (depth + 1) (Document.listOf? decode) (.list (items.map encode))
      items where
  decoded := by
    change (items.map encode).mapM decode = some items
    induction items with
    | nil => rfl
    | cons a items ih =>
        rw [List.map_cons, List.mapM_cons, (heach a List.mem_cons_self).decoded,
          ih fun a hlater => heach a (List.mem_cons_of_mem _ hlater)]
        rfl
  readable := by
    refine .list fun item hmember => ?_
    obtain ⟨a, hlisted, rfl⟩ := List.mem_map.1 hmember
    exact (heach a hlisted).readable

theorem codes_texts (items : List String) :
    Codes (depth + 1) (Document.listOf? Document.text?) (.texts items) items :=
  .list fun s _ => ⟨rfl, readable_text s⟩

theorem Codes.nullable {decode : Document → Option α} {encode : α → Document}
    {a? : Option α} (heach : ∀ a ∈ a?, Codes depth decode (encode a) a)
    (hgiven : ∀ a plain, encode a ≠ .scalar .null plain) :
    Codes depth (Document.nullable? decode) (.nullable encode a?) a? := by
  cases a? with
  | none => exact ⟨rfl, .scalar trivial⟩
  | some a =>
      obtain ⟨hdecoded, hreadable⟩ := heach a rfl
      refine ⟨?_, hreadable⟩
      have hother : Document.nullable? decode (encode a) =
          (decode (encode a)).map some := by
        unfold Document.nullable?
        split
        · next hshape => exact absurd hshape (hgiven a _)
        · rfl
      rw [Document.nullable, hother, hdecoded, Option.map_some]

theorem codes_nullableText (s? : Option String) :
    Codes depth (Document.nullable? Document.text?) (.nullable .text s?) s? :=
  .nullable (fun s _ => ⟨rfl, readable_text s⟩) nofun

end

/-! ## Records -/

theorem read_part {d : Option α} {a : α} {f : α → Option β} {r : Option β}
    (hfirst : d = some a) (hrest : f a = r) : (d >>= f) = r := by
  rw [hfirst]
  exact hrest

theorem Json.Readable.members {depth : Nat} {members : Members}
    (hreadable : Readable depth (.record members)) :
    Document.settleMembers? members = some members := by
  cases hreadable with
  | record heach =>
      exact Document.settleMembers?_eq fun member hlisted =>
        (heach member hlisted).settle?

theorem tagged?_record {depth : Nat} {tag kind : String} {members : Members}
    (hothers : members.all (·.1 != tag) = true)
    (hreadable : Readable depth (.record members)) :
    Document.tagged? tag (.record ((tag, .text kind) :: members)) =
      some (kind, .record members) := by
  have hnone : members.filter (·.1 == tag) = [] := by
    simpa [List.filter_eq_nil_iff, bne_iff_ne] using hothers
  have hall : members.filter (fun member => !(member.1 == tag)) = members := by
    simpa [List.filter_eq_self, bne_iff_ne] using hothers
  simp [Document.tagged?, List.partition_eq_filter_filter, hnone, hall,
    Document.text?, Document.text, hreadable.members, Function.comp_def]

/-! ## Numbers and positions -/

def TypeId.fits (id : TypeId) : Bool := id.index < 2 ^ 32

def ValueId.fits (id : ValueId) : Bool := id.index < 2 ^ 32

def FuncId.fits (id : FuncId) : Bool := id.index < 2 ^ 32

def Pos.fits (pos : Pos) : Bool := pos.handle < 2 ^ 32

def PositionEntry.fits (entry : PositionEntry) : Bool :=
  entry.file < 2 ^ 32 && entry.line < 2 ^ 32 && entry.column < 2 ^ 32

section

variable {depth : Nat}

theorem TypeId.codes {id : TypeId} (hfits : id.fits = true) :
    Codes depth decode? id.encode id :=
  (codes_word32 (of_decide_eq_true hfits)).map TypeId.mk

theorem ValueId.codes {id : ValueId} (hfits : id.fits = true) :
    Codes depth decode? id.encode id :=
  (codes_word32 (of_decide_eq_true hfits)).map ValueId.mk

theorem FuncId.codes {id : FuncId} (hfits : id.fits = true) :
    Codes depth decode? id.encode id :=
  (codes_word32 (of_decide_eq_true hfits)).map FuncId.mk

theorem Pos.codes {pos : Pos} (hfits : pos.fits = true) :
    Codes depth decode? pos.encode pos :=
  (codes_word32 (of_decide_eq_true hfits)).map Pos.mk

theorem ValueId.codes_all {ids : List ValueId}
    (hfits : ids.all ValueId.fits = true) :
    Codes (depth + 1) (Document.listOf? decode?) (encodeAll ids) ids :=
  .list fun _ hmember => codes (List.all_eq_true.1 hfits _ hmember)

theorem PositionEntry.codes {entry : PositionEntry}
    (hfits : entry.fits = true) :
    Codes (depth + 1) decode? entry.encode entry := by
  simp only [PositionEntry.fits, Bool.and_eq_true, decide_eq_true_eq] at hfits
  have hfile := @codes_word32 depth _ hfits.1.1
  have hline := @codes_word32 depth _ hfits.1.2
  have hcolumn := @codes_word32 depth _ hfits.2
  exact ⟨read_part rfl <| read_part hfile.decoded <| read_part hline.decoded <|
      read_part hcolumn.decoded rfl,
    .record (by simp [hfile.readable, hline.readable, hcolumn.readable])⟩

/-! ## Types -/

def Ty.fits (type : Ty) : Bool :=
  type.referenced.all TypeId.fits &&
    match type with
    | .array _ length => length < 2 ^ 64
    | _ => true

theorem Field.codes {field : Field} (hfits : field.type.fits = true) :
    Codes (depth + 1) ofSettled? field.encode field := by
  have htype := @TypeId.codes depth _ hfits
  exact ⟨read_part rfl <| read_part rfl <| read_part htype.decoded rfl,
    .record (by simp [htype.readable])⟩

private theorem Ty.codes_tagged {kind : String} {members : Members} {type : Ty}
    (hdecoded : ofMembers? kind members = some type)
    (hreadable : ∀ member ∈ members, Readable depth member.2)
    (hothers : members.all (·.1 != "kind") = true) :
    Codes (depth + 1) decode? (.record (("kind", .text kind) :: members))
      type where
  decoded := by
    rw [decode?, tagged?_record hothers (.record hreadable)]
    exact hdecoded
  readable := .record (List.forall_mem_cons.2 ⟨readable_text kind, hreadable⟩)

private theorem BasicKind.ofSettled?_label (kind : BasicKind) :
    ofSettled? (.text kind.label) = some kind := by
  cases kind <;> rfl

private theorem TypeId.codes_all {ids : List TypeId}
    (hfits : ∀ id ∈ ids, id.fits = true) :
    Codes (depth + 1) (Document.listOf? decode?) (Ty.encodeIds ids) ids :=
  .list fun id hmember => codes (hfits id hmember)

theorem Ty.codes {type : Ty} (hfits : type.fits = true) :
    Codes (depth + 3) decode? type.encode type := by
  simp only [Ty.fits, Bool.and_eq_true, List.all_eq_true] at hfits
  obtain ⟨hids, hlength⟩ := hfits
  cases type with
  | basic kind =>
      exact codes_tagged (read_part kind.ofSettled?_label rfl) (by simp) rfl
  | named package name underlying =>
      have hpath := @codes_nullableText (depth + 2) package
      have hunder :=
        @TypeId.codes (depth + 2) _ (hids underlying (by simp [referenced]))
      exact codes_tagged (read_part hpath.decoded <| read_part rfl <|
        read_part hunder.decoded rfl)
        (by simp [hpath.readable, hunder.readable]) rfl
  | pointer elem | slice elem | chan elem =>
      have helem :=
        @TypeId.codes (depth + 2) _ (hids elem (by simp [referenced]))
      exact codes_tagged (read_part helem.decoded rfl)
        (by simp [helem.readable]) rfl
  | array elem length' =>
      have helem :=
        @TypeId.codes (depth + 2) _ (hids elem (by simp [referenced]))
      have hlength := @codes_word64 (depth + 2) _ (of_decide_eq_true hlength)
      exact codes_tagged
        (read_part helem.decoded <| read_part hlength.decoded rfl)
        (by simp [helem.readable, hlength.readable]) rfl
  | map key elem =>
      have hkey := @TypeId.codes (depth + 2) _ (hids key (by simp [referenced]))
      have helem :=
        @TypeId.codes (depth + 2) _ (hids elem (by simp [referenced]))
      exact codes_tagged (read_part hkey.decoded <| read_part helem.decoded rfl)
        (by simp [hkey.readable, helem.readable]) rfl
  | struct fields =>
      have hfields : Codes (depth + 2) _ _ fields := .list fun field hmember =>
        @Field.codes depth field (hids _ (List.mem_map_of_mem hmember))
      exact codes_tagged (read_part hfields.decoded rfl)
        (by simp [hfields.readable]) rfl
  | interface methods =>
      have hmethods := @codes_texts (depth + 1) methods
      exact codes_tagged (read_part hmethods.decoded rfl)
        (by simp [hmethods.readable]) rfl
  | signature params results variadic =>
      have hparams :=
        @TypeId.codes_all (depth + 1) params fun id hmember =>
          hids id (List.mem_append_left _ hmember)
      have hresults :=
        @TypeId.codes_all (depth + 1) results fun id hmember =>
          hids id (List.mem_append_right _ hmember)
      exact codes_tagged (read_part hparams.decoded <|
        read_part hresults.decoded <| read_part rfl rfl)
        (by simp [hparams.readable, hresults.readable]) rfl
  | tuple elems =>
      have helems := @TypeId.codes_all (depth + 1) elems hids
      exact codes_tagged (read_part helems.decoded rfl)
        (by simp [helems.readable]) rfl

end

end SchemaLint
