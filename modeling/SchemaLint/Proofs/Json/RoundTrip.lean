import SchemaLint.Proofs.Json.Tokens

/-!
# Reading what was written

The text of a document is cut into the tokens of the document, and these are
folded into the document again, whatever stands around it. So a document with
legible scalars that is not nested too deep is read back from its text.
-/

namespace SchemaLint.Json

/-! ## The tokens of a document -/

mutual

def tokensOf : Document → List Token
  | .scalar value _ => [tokenOf value]
  | .list [] => [.openList, .closeList]
  | .list (item :: rest) =>
    .openList :: tokensOf item ++ itemTokens rest ++ [.closeList]
  | .record [] => [.openRecord, .closeRecord]
  | .record ((name, item) :: rest) =>
    .openRecord :: .text (some name) :: .colon :: tokensOf item ++
      memberTokens rest ++ [.closeRecord]
  | .mapping _ => []

def itemTokens : List Document → List Token
  | [] => []
  | item :: rest => .comma :: tokensOf item ++ itemTokens rest

def memberTokens : Members → List Token
  | [] => []
  | (name, item) :: rest =>
    .comma :: .text (some name) :: .colon :: tokensOf item ++ memberTokens rest

end

/-- Documents without keys that are no text, with legible scalars and at most so
many levels of nesting. -/
inductive Readable : Nat → Document → Prop
  | scalar {depth : Nat} {value : Scalar} :
    Legible value → Readable depth (.scalar value none)
  | list {depth : Nat} {items : List Document} :
    (∀ item ∈ items, Readable depth item) → Readable (depth + 1) (.list items)
  | record {depth : Nat} {members : Members} :
    (∀ member ∈ members, Readable depth member.2) →
    Readable (depth + 1) (.record members)

/-! ## Cutting -/

/-- The text is cut into the tokens where it is not taken for the start of a
longer number. -/
def Cuts (text : String) (tokens : List Token) : Prop :=
  ∀ rest, Delimited rest →
    tokens? (text.toList ++ rest) = (tokens? rest).map (tokens ++ ·)

/-- The text does not go on with a number that stands before it, nor does what
follows it if it is empty. -/
def Delimits (text : String) : Prop :=
  ∀ rest, Delimited rest → Delimited (text.toList ++ rest)

section

variable {text text' : String} {tokens tokens' : List Token}

theorem Marks.cuts (hmarks : Marks text tokens) : Cuts text tokens :=
  fun rest _ => hmarks rest

theorem Marks.append (hfirst : Marks text tokens)
    (hsecond : Marks text' tokens') :
    Marks (text ++ text') (tokens ++ tokens') := by
  intro rest
  rw [String.toList_append, List.append_assoc, hfirst, hsecond]
  simp [Function.comp_def]

theorem Marks.before (hfirst : Marks text tokens)
    (hsecond : Cuts text' tokens') :
    Cuts (text ++ text') (tokens ++ tokens') := by
  intro rest hdelimited
  rw [String.toList_append, List.append_assoc, hfirst, hsecond rest hdelimited]
  simp [Function.comp_def]

theorem Cuts.append (hfirst : Cuts text tokens) (hsecond : Cuts text' tokens')
    (hdelimits : Delimits text') :
    Cuts (text ++ text') (tokens ++ tokens') := by
  intro rest hdelimited
  rw [String.toList_append, List.append_assoc,
    hfirst _ (hdelimits rest hdelimited), hsecond rest hdelimited]
  simp [Function.comp_def]

private theorem delimited_of_space {c : Char} (hspace : isSpace c = true)
    (rest : List Char) : Delimited (c :: rest) := by
  simp only [isSpace, Bool.or_eq_true, beq_iff_eq] at hspace
  rcases hspace with ((rfl | rfl) | rfl) | rfl <;>
    exact ⟨rfl, by decide, by decide, by decide⟩

private theorem delimits_blank (hspaces : ∀ c ∈ text.toList, isSpace c = true) :
    Delimits text := by
  intro rest hdelimited
  match hshape : text.toList with
  | [] => exact hdelimited
  | c :: chars =>
      refine delimited_of_space (hspaces c ?_) _
      rw [hshape]
      exact List.mem_cons_self

private theorem Cuts.append_blank (hfirst : Cuts text tokens)
    (hspaces : ∀ c ∈ text'.toList, isSpace c = true) :
    Cuts (text ++ text') tokens := by
  simpa using hfirst.append (marks_blank hspaces).cuts (delimits_blank hspaces)

end

structure Layout.Spaced (layout : Layout) : Prop where
  before : ∀ depth, ∀ c ∈ (layout.before depth).toList, isSpace c = true
  after : ∀ depth, ∀ c ∈ (layout.after depth).toList, isSpace c = true
  between : ∀ depth, ∃ spaces, layout.between depth = "," ++ spaces ∧
      ∀ c ∈ spaces.toList, isSpace c = true
  named : ∃ spaces, layout.named = ":" ++ spaces ∧
      ∀ c ∈ spaces.toList, isSpace c = true

theorem Layout.indented_spaced : Layout.indented.Spaced := by
  have hline (depth : Nat) : ∀ c ∈ (Layout.indented.after depth).toList,
      isSpace c = true := by
    have hshape : Layout.indented.after depth =
        "\n" ++ String.ofList (List.replicate (2 * depth) ' ') := rfl
    intro c hmember
    simp only [hshape, String.toList_append, String.toList_ofList] at hmember
    rcases List.mem_append.1 hmember with hfirst | hlater
    · cases List.mem_singleton.1 hfirst
      rfl
    · cases List.eq_of_mem_replicate hlater
      rfl
  have hblank : ∀ c ∈ " ".toList, isSpace c = true := by
    intro c hmember
    cases List.mem_singleton.1 hmember
    rfl
  exact ⟨fun depth => hline (depth + 1), hline,
    fun depth => ⟨_, rfl, hline (depth + 1)⟩, " ", rfl, hblank⟩

private theorem delimits_closeList : Delimits "]" :=
  fun _ _ => ⟨rfl, by decide, by decide, by decide⟩

private theorem delimits_closeRecord : Delimits "\x7d" :=
  fun _ _ => ⟨rfl, by decide, by decide, by decide⟩

section

variable {layout : Layout} (hspaced : layout.Spaced) (depth : Nat)
include hspaced

theorem Layout.Spaced.marks_between :
    Marks (layout.between depth) [.comma] := by
  obtain ⟨spaces, hshape, hblank⟩ := hspaced.between depth
  rw [hshape]
  exact marks_comma.append (marks_blank hblank)

theorem Layout.Spaced.marks_named : Marks layout.named [.colon] := by
  obtain ⟨spaces, hshape, hblank⟩ := hspaced.named
  rw [hshape]
  exact marks_colon.append (marks_blank hblank)

theorem delimits_between (text : String) :
    Delimits (layout.between depth ++ text) := by
  intro rest _
  obtain ⟨spaces, hshape, -⟩ := hspaced.between depth
  rw [hshape, String.toList_append, String.toList_append]
  exact ⟨rfl, by decide, by decide, by decide⟩

private theorem cuts_items {items : List Document}
    (heach :
      ∀ item ∈ items, ∀ depth, Cuts (write layout depth item) (tokensOf item)) :
    Cuts (writeItems layout depth items) (itemTokens items) ∧
      Delimits (writeItems layout depth items) := by
  induction items with
  | nil =>
      rw [writeItems, itemTokens]
      exact ⟨Marks.cuts fun rest => by simp, fun rest hdelimited => hdelimited⟩
  | cons item items ih =>
      obtain ⟨hcuts, hdelimits⟩ :=
        ih fun item hmember => heach item (List.mem_cons_of_mem _ hmember)
      rw [writeItems, itemTokens]
      refine ⟨?_, ?_⟩
      · exact ((hspaced.marks_between depth).before
          (heach item List.mem_cons_self _)).append hcuts hdelimits
      · rw [String.append_assoc]
        exact delimits_between hspaced depth _

private theorem cuts_members {members : Members}
    (heach : ∀ member ∈ members, ∀ depth, Cuts (write layout depth member.2)
        (tokensOf member.2)) :
    Cuts (writeMembers layout depth members) (memberTokens members) ∧
      Delimits (writeMembers layout depth members) := by
  induction members with
  | nil =>
      rw [writeMembers, memberTokens]
      exact ⟨Marks.cuts fun rest => by simp, fun rest hdelimited => hdelimited⟩
  | cons member members ih =>
      obtain ⟨hcuts, hdelimits⟩ :=
        ih fun member hlater => heach member (List.mem_cons_of_mem _ hlater)
      obtain ⟨name, item⟩ := member
      rw [writeMembers, memberTokens]
      refine ⟨?_, ?_⟩
      · have hmarks :=
          ((hspaced.marks_between depth).append (marks_text name)).append
            hspaced.marks_named
        exact (hmarks.before (heach (name, item) List.mem_cons_self _)).append
          hcuts hdelimits
      · simp only [String.append_assoc]
        exact delimits_between hspaced depth _

theorem cuts_write {levels : Nat} {document : Document}
    (hreadable : Readable levels document) :
    Cuts (write layout depth document) (tokensOf document) := by
  induction hreadable generalizing depth with
  | scalar hlegible =>
      rw [write, tokensOf]
      exact fun rest hdelimited => tokens?_scalar hlegible hdelimited
  | @list _ items _ ih =>
      cases items with
      | nil =>
          rw [write, tokensOf]
          exact (Marks.append marks_openList marks_closeList).cuts
      | cons item items =>
          obtain ⟨hcuts, hdelimits⟩ :=
            cuts_items hspaced depth fun item hlater =>
              ih item (List.mem_cons_of_mem _ hlater)
          rw [write, tokensOf]
          have hopened :=
            marks_openList.append (marks_blank (hspaced.before depth))
          have hinside :=
            (hopened.before (ih item List.mem_cons_self (depth + 1))).append
              hcuts hdelimits
          exact (hinside.append_blank (hspaced.after depth)).append
            marks_closeList.cuts delimits_closeList
  | @record _ members _ ih =>
      cases members with
      | nil =>
          rw [write, tokensOf]
          exact (Marks.append marks_openRecord marks_closeRecord).cuts
      | cons member members =>
          obtain ⟨hcuts, hdelimits⟩ :=
            cuts_members hspaced depth fun member hlater =>
              ih member (List.mem_cons_of_mem _ hlater)
          obtain ⟨name, item⟩ := member
          rw [write, tokensOf]
          have hopened :=
            marks_openRecord.append (marks_blank (hspaced.before depth))
          have hnamed :=
            (hopened.append (marks_text name)).append hspaced.marks_named
          have hinside :=
            (hnamed.before
              (ih (name, item) List.mem_cons_self (depth + 1))).append hcuts
              hdelimits
          exact (hinside.append_blank (hspaced.after depth)).append
            marks_closeRecord.cuts delimits_closeRecord

end

/-! ## Folding -/

theorem foldlM_step_cons {state state' : Parsing} {token : Token}
    (htaken : step state token = some state') (tokens : List Token) :
    (token :: tokens).foldlM step state = tokens.foldlM step state' := by
  rw [List.foldlM_cons, htaken, Option.bind_eq_bind, Option.bind_some]

theorem foldlM_step_append {state state' : Parsing} {tokens : List Token}
    (htaken : tokens.foldlM step state = some state') (tokens' : List Token) :
    (tokens ++ tokens').foldlM step state = tokens'.foldlM step state' := by
  rw [List.foldlM_append, htaken, Option.bind_eq_bind, Option.bind_some]

def Folds (document : Document) : Prop :=
  ∀ frames mayClose, (tokensOf document).foldlM step (.value frames mayClose) =
    some (complete document frames)

private theorem folds_items {items : List Document}
    (heach : ∀ item ∈ items, Folds item) (frames : List Frame)
    (reversed : List Document) :
    (itemTokens items).foldlM step (.afterItem frames reversed) =
      some (.afterItem frames (items.reverse ++ reversed)) := by
  induction items generalizing reversed with
  | nil => rfl
  | cons item items ih =>
      have hfirst :=
        heach item List.mem_cons_self (.list reversed :: frames) false
      rw [itemTokens, List.cons_append, foldlM_step_cons rfl,
        foldlM_step_append hfirst, complete,
        ih fun item hlater => heach item (List.mem_cons_of_mem _ hlater)]
      simp

def openMembers (members : Members) : OpenMembers :=
  members.map fun (name, item) => (some name, item)

private theorem mapM_openMembers (members : Members) :
    (openMembers members).mapM
        (fun (name, item) => name.map fun name => (name, item)) =
      some members := by
  induction members with
  | nil => rfl
  | cons member members ih =>
      unfold openMembers at ih ⊢
      rw [List.map_cons, List.mapM_cons, ih]
      rfl

private theorem recordOf_openMembers (members : Members) :
    recordOf (openMembers members) = .record members := by
  rw [recordOf, mapM_openMembers]

private theorem folds_members {members : Members}
    (heach : ∀ member ∈ members, Folds member.2) (frames : List Frame)
    (reversed : OpenMembers) :
    (memberTokens members).foldlM step (.afterMember frames reversed) =
      some
        (.afterMember frames ((openMembers members).reverse ++ reversed)) := by
  induction members generalizing reversed with
  | nil => rfl
  | cons member members ih =>
      obtain ⟨name, item⟩ := member
      have hfirst :=
        heach (name, item) List.mem_cons_self
          (.record reversed (some name) :: frames) false
      rw [memberTokens, List.cons_append, List.cons_append, List.cons_append,
        foldlM_step_cons rfl, foldlM_step_cons rfl, foldlM_step_cons rfl,
        foldlM_step_append hfirst, complete,
        ih fun member hlater => heach member (List.mem_cons_of_mem _ hlater)]
      simp [openMembers]

theorem Readable.folds {levels : Nat} {document : Document}
    (hreadable : Readable levels document) : Folds document := by
  induction hreadable with
  | @scalar _ value hlegible =>
      intro frames mayClose
      rw [tokensOf]
      cases value <;> rfl
  | @list _ items _ ih =>
      intro frames mayClose
      cases items with
      | nil => rfl
      | cons item items =>
          have hfirst := ih item List.mem_cons_self (.list [] :: frames) true
          have hothers :=
            folds_items
              (fun item hlater => ih item (List.mem_cons_of_mem _ hlater))
              frames [item]
          rw [tokensOf, List.cons_append, List.cons_append,
            foldlM_step_cons rfl, List.append_assoc, foldlM_step_append hfirst,
            complete, foldlM_step_append hothers, foldlM_step_cons rfl]
          simp
  | @record _ members _ ih =>
      intro frames mayClose
      cases members with
      | nil => rfl
      | cons member members =>
          obtain ⟨name, item⟩ := member
          have hfirst :=
            ih (name, item) List.mem_cons_self
              (.record [] (some name) :: frames) false
          have hothers :=
            folds_members
              (fun member hlater => ih member (List.mem_cons_of_mem _ hlater))
              frames [(some name, item)]
          have hclosed :
              recordOf
                ((openMembers members).reverse ++ [(some name, item)]).reverse =
              .record ((name, item) :: members) := by
            rw [← recordOf_openMembers]
            simp [openMembers]
          simp only [tokensOf, List.cons_append, List.append_assoc]
          rw [foldlM_step_cons rfl, foldlM_step_cons rfl, foldlM_step_cons rfl,
            foldlM_step_append hfirst, complete, foldlM_step_append hothers,
            foldlM_step_cons rfl, hclosed]
          rfl

/-! ## Reading -/

theorem itemsWithin_eq {depth : Nat} {items : List Document}
    (heach : ∀ item ∈ items, item.withinDepth depth = item) :
    Document.itemsWithin depth items = items := by
  induction items with
  | nil => rfl
  | cons item items ih =>
      rw [Document.itemsWithin, heach item List.mem_cons_self,
        ih fun item hlater => heach item (List.mem_cons_of_mem _ hlater)]

theorem membersWithin_eq {depth : Nat} {members : Members}
    (heach : ∀ member ∈ members, member.2.withinDepth depth = member.2) :
    Document.membersWithin depth members = members := by
  induction members with
  | nil => rfl
  | cons member members ih =>
      obtain ⟨name, item⟩ := member
      rw [Document.membersWithin, heach (name, item) List.mem_cons_self,
        ih fun member hlater => heach member (List.mem_cons_of_mem _ hlater)]

theorem Readable.withinDepth {levels : Nat} {document : Document}
    (hreadable : Readable levels document) :
    document.withinDepth levels = document := by
  induction hreadable with
  | scalar => rfl
  | list _ ih => rw [Document.withinDepth, itemsWithin_eq ih]
  | record _ ih => rw [Document.withinDepth, membersWithin_eq ih]

theorem parse?_write {layout : Layout} (hspaced : layout.Spaced)
    {document : Document} (hreadable : Readable depthLimit document) :
    parse? (write layout 0 document) = some document := by
  have hcut : tokens? (write layout 0 document).toList =
      some (tokensOf document) := by
    simpa using cuts_write hspaced 0 hreadable [] trivial
  have hfolded : ofTokens? (tokensOf document) = some document := by
    rw [ofTokens?, hreadable.folds [] false]
    rfl
  simp only [parse?, hcut, hfolded, hreadable.withinDepth, Option.bind_eq_bind,
    Option.bind_some, Option.pure_def]

end SchemaLint.Json
