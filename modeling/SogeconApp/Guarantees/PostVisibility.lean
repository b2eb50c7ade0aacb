import SogeconApp.Source.Posts

/-!
# One publication rule in four places

The predicate of the service, the clause of the public list, the status filters of the
administration and the web's state badge are compared with one statement of the rule:
a board post is published; any other post is a draft without an instant, scheduled before
it and published from it on.
-/

namespace SogeconApp.Guarantees.PostVisibility

open Library Source.Posts

/-- The rule. -/
def publicationState (post : Post) (now : Instant) : AdminPostPublicationState :=
  if isBoard post.category then .published
  else
    match post.publishedAt with
    | none => .draft
    | some publishedAt => if publishedAt ≤ now then .published else .scheduled

/-- In SQL a missing category is neither in the list nor out of it, and so not on the board. -/
theorem holds_inBoard (category : Option String) :
    (Truth.isIn category boardPostCategories).Holds ↔ isBoard category = true := by
  cases category <;> simp [isBoard]

/-- `NOT IN` leaves NULL unknown, which is why the clause asks for NULL first. -/
theorem holds_nonBoard (post : Post) :
    (adminNonBoardCategoryClause post).Holds ↔ isBoard post.category = false := by
  unfold adminNonBoardCategoryClause
  rw [Truth.holds_or, Truth.holds_isNull, Truth.holds_not]
  cases post.category with
  | none => simp [isBoard]
  | some category => simp [isBoard, Truth.isIn, boardPostCategories]

theorem holds_notLater (publishedAt : Option Instant) (now : Instant) :
    (notLater publishedAt now).Holds ↔ ∃ instant, publishedAt = some instant ∧ instant ≤ now := by
  simp [notLater]

theorem isPostPublic_iff (post : Post) (now : Instant) :
    isPostPublic post now = true ↔ publicationState post now = .published := by
  unfold isPostPublic publicationState
  cases isBoard post.category with
  | true => simp
  | false =>
    cases post.publishedAt with
    | none => simp
    | some publishedAt => by_cases reached : publishedAt ≤ now <;> simp [reached]

theorem holds_publicVisibilityClause (post : Post) (now : Instant) :
    (publicVisibilityClause now post).Holds ↔ isPostPublic post now = true := by
  unfold publicVisibilityClause isPostPublic
  rw [Truth.holds_or, Truth.holds_and, holds_inBoard, Truth.holds_isNotNull, holds_notLater]
  cases isBoard post.category with
  | true => simp
  | false => cases post.publishedAt <;> simp

/-- The filter of the administration selects the post. -/
def Selects (now : Instant) (post : Post) (status : String) : Prop :=
  ∃ clause, adminStatusClause (some status) now = some clause ∧ (clause post).Holds

/-- The filter for published posts selects those on the board and those that are dated no later than the
instant. -/
theorem selects_published (now : Instant) (post : Post) :
    Selects now post "published" ↔
      isBoard post.category = true ∨ ∃ instant, post.publishedAt = some instant ∧ instant ≤ now := by
  simp only [Selects, adminStatusClause, if_true, Option.some.injEq, exists_eq_left', Truth.holds_or,
    Truth.holds_all, List.forall_mem_cons, holds_inBoard, holds_nonBoard, Truth.holds_isNotNull,
    holds_notLater]
  cases isBoard post.category with
  | true => simp
  | false => cases post.publishedAt <;> simp

/-- A scheduled post is off the board and dated after the instant. -/
theorem selects_scheduled (now : Instant) (post : Post) :
    Selects now post "scheduled" ↔
      isBoard post.category = false ∧ ∃ instant, post.publishedAt = some instant ∧ now < instant := by
  simp [Selects, adminStatusClause, holds_nonBoard]

theorem selects_draft (now : Instant) (post : Post) :
    Selects now post "draft" ↔ isBoard post.category = false ∧ post.publishedAt = none := by
  simp [Selects, adminStatusClause, holds_nonBoard]

theorem selects_iff (now : Instant) (post : Post) (state : AdminPostPublicationState) :
    Selects now post state.name ↔ publicationState post now = state := by
  unfold publicationState
  cases state with
  | published =>
    rw [AdminPostPublicationState.name, selects_published]
    cases isBoard post.category with
    | true => simp
    | false => cases post.publishedAt <;> simp
  | scheduled =>
    rw [AdminPostPublicationState.name, selects_scheduled]
    cases isBoard post.category with
    | true => simp
    | false => cases post.publishedAt <;> simp
  | draft =>
    rw [AdminPostPublicationState.name, selects_draft]
    cases isBoard post.category with
    | true => simp
    | false =>
      cases post.publishedAt with
      | none => simp
      | some publishedAt => by_cases reached : publishedAt ≤ now <;> simp [reached]

theorem isBoardCategory_eq (category : Option String) : isBoardCategory category = isBoard category := by
  cases category with
  | none => simp [isBoardCategory, isBoard, boardCategoryKeys]
  | some category => simp [isBoardCategory, isBoard, boardCategoryKeys, boardPostCategories]

/-- What the API renders, `Date.parse` reads back. -/
def Rendered (render : Instant → String) (parse : String → Option Instant) (instant : Instant) : Prop :=
  render instant ≠ "" ∧ parse (render instant) = some instant

/-- The badge of the web shows the state, if the dates are read as they were rendered. -/
theorem webState_eq (render : Instant → String) (parse : String → Option Instant) (post : Post)
    (now : Instant) (rendered : ∀ instant, post.publishedAt = some instant → Rendered render parse instant) :
    getAdminPostPublicationState parse post.category (post.publishedAt.map render) now =
      publicationState post now := by
  unfold getAdminPostPublicationState publicationState
  rw [isBoardCategory_eq]
  cases isBoard post.category with
  | true => rfl
  | false =>
    cases published : post.publishedAt with
    | none => rfl
    | some publishedAt =>
      obtain ⟨some, parsed⟩ := rendered publishedAt published
      by_cases reached : publishedAt ≤ now
      · have due : ¬now < publishedAt := Int.not_lt.mpr reached
        simp [some, parsed, reached, due]
      · have early : now < publishedAt := Int.not_le.mp reached
        simp [some, parsed, reached, early]

/-- The check of one post, the filter of public queries, the admin filter and the state that the admin
page shows agree on every post at every instant. Exactly one of the three admin filters selects the
post. -/
theorem visibility_rules_agree (render : Instant → String) (parse : String → Option Instant) (post : Post)
    (now : Instant) (rendered : ∀ instant, post.publishedAt = some instant → Rendered render parse instant) :
    (isPostPublic post now = true ↔ (publicVisibilityClause now post).Holds) ∧
      (isPostPublic post now = true ↔ Selects now post "published") ∧
      (∃! status, status ∈ ["published", "scheduled", "draft"] ∧ Selects now post status) ∧
      Selects now post
        (getAdminPostPublicationState parse post.category (post.publishedAt.map render) now).name := by
  refine ⟨(holds_publicVisibilityClause post now).symm, ?_, ?_, ?_⟩
  · rw [isPostPublic_iff]
    exact (selects_iff now post .published).symm
  · refine ⟨(publicationState post now).name, ⟨?_, (selects_iff now post _).mpr rfl⟩, ?_⟩
    · cases publicationState post now <;> simp [AdminPostPublicationState.name]
    · rintro status ⟨member, selected⟩
      simp only [List.mem_cons, List.not_mem_nil, or_false] at member
      rcases member with rfl | rfl | rfl
      · rw [(selects_iff now post .published).mp selected, AdminPostPublicationState.name]
      · rw [(selects_iff now post .scheduled).mp selected, AdminPostPublicationState.name]
      · rw [(selects_iff now post .draft).mp selected, AdminPostPublicationState.name]
  · rw [webState_eq render parse post now rendered]
    exact (selects_iff now post _).mpr rfl

/-- A notice at the very instant it is published. -/
def dueNotice : Post :=
  { id := 1, authorId := 1, title := "", content := "", publishedAt := some 1000, createdAt := none,
    category := some "notice", pinned := false, coverImage := none, images := none, viewCount := 0 }

/-- One second after the epoch, as the API writes it. -/
def dueText : String := "1970-01-01T00:00:01Z"

def parseDue (text : String) : Option Instant := if text = dueText then some 1000 else none

/-- The boundary: the notice is public at the instant itself. -/
theorem visibility_rules_agree_due :
    isPostPublic dueNotice 1000 = true ∧ (publicVisibilityClause 1000 dueNotice).Holds ∧
      getAdminPostPublicationState parseDue (some "notice") (some dueText) 1000 = .published ∧
      Selects 1000 dueNotice "published" := by
  have agree := visibility_rules_agree (fun _ => dueText) parseDue dueNotice 1000 (by
    intro instant published
    cases published
    exact ⟨by decide, by decide⟩)
  have now : isPostPublic dueNotice 1000 = true := by decide
  exact ⟨now, agree.1.mp now, by decide, agree.2.1.mp now⟩

end SogeconApp.Guarantees.PostVisibility
