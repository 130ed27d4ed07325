import TradingBroker.Lib.Pages

/-!
# Paging

`bot/app/utils/pagination.py`. A listing is shown page by page: `paginate` cuts a page out of
a list that came whole, `build_pagination_row` makes the buttons under any page of its total,
its limit and its offset. The two clamp what they are given on their own, and `local_paging`
says that they agree: the walk over the Next buttons partitions the list, and the Prev buttons
lead back over it.

`paginate` takes a limit below one for one and an offset outside the list for the
beginning, so a page that was left behind by a list that shrank is the first. The buttons
take a limit of zero for one and the offset as it comes. The walk is that of `Lib.Pages`,
with what the Next button says as its step: offsets grow by the limit and end with the
list.
-/

namespace TradingBroker.Bot

open TradingBroker.Lib.Pages

/-- The `page` dict. -/
structure Page where
  total : Int
  limit : Int
  offset : Int
  deriving DecidableEq

/-- `InlineKeyboardButton`, its callback data made of an offset. -/
structure NavButton (δ : Type) where
  text : String
  callbackData : δ
  deriving DecidableEq

def prevText : String := "⬅️ Prev"
def nextText : String := "Next ➡️"

section
variable {α : Type}

/-- `paginate`. -/
def paginate (items : List α) (limit offset : Int) : List α × Page :=
  let limit := if limit < 1 then 1 else limit
  let total : Int := items.length
  let offset := if offset < 0 ∨ total ≤ offset then 0 else offset
  ((items.drop offset.toNat).take limit.toNat, ⟨total, limit, offset⟩)

end

/-- `build_pagination_row`. -/
def buildPaginationRow {δ : Type} (page : Page) (callbackFor : Int → δ) : List (NavButton δ) :=
  let limit := if page.limit = 0 then 1 else page.limit
  (if 0 < page.offset then
    [⟨prevText, callbackFor (if page.offset - limit < 0 then 0 else page.offset - limit)⟩]
  else []) ++
  (if page.offset + limit < page.total then [⟨nextText, callbackFor (page.offset + limit)⟩]
  else [])

/-- What the button with this text leads to. -/
def follow {δ : Type} (text : String) (row : List (NavButton δ)) : Option δ :=
  (row.find? fun button => button.text == text).map NavButton.callbackData

def nextPage (page : Page) : Option Int := follow nextText (buildPaginationRow page id)
def prevPage (page : Page) : Option Int := follow prevText (buildPaginationRow page id)

/-- Whatever the callback data is made of, it is made of these offsets. -/
theorem follow_buildPaginationRow {δ : Type} (text : String) (page : Page)
    (callbackFor : Int → δ) :
    follow text (buildPaginationRow page callbackFor) =
      (follow text (buildPaginationRow page id)).map callbackFor := by
  have hrow : buildPaginationRow page callbackFor =
      (buildPaginationRow page id).map fun button =>
        ⟨button.text, callbackFor button.callbackData⟩ := by
    unfold buildPaginationRow
    rw [List.map_append, apply_ite (List.map _), apply_ite (List.map _)]
    rfl
  rw [hrow, follow, follow, List.find?_map, Option.map_map, Option.map_map]
  rfl

/-! ## The buttons of a page -/

theorem nextPage_eq {page : Page} (hlimit : page.limit ≠ 0) :
    nextPage page = if page.offset + page.limit < page.total then
      some (page.offset + page.limit) else none := by
  have hne : (prevText == nextText) = false := by decide
  by_cases hprev : 0 < page.offset
  · by_cases hnext : page.offset + page.limit < page.total
    · simp [nextPage, follow, buildPaginationRow, hlimit, hprev, hnext, hne]
    · simp [nextPage, follow, buildPaginationRow, hlimit, hprev, hnext, hne]
  · by_cases hnext : page.offset + page.limit < page.total
    · simp [nextPage, follow, buildPaginationRow, hlimit, hprev, hnext]
    · simp [nextPage, follow, buildPaginationRow, hlimit, hprev, hnext]

theorem prevPage_eq {page : Page} (hlimit : page.limit ≠ 0) :
    prevPage page = if 0 < page.offset then
      some (if page.offset - page.limit < 0 then 0 else page.offset - page.limit) else none := by
  have hne : (nextText == prevText) = false := by decide
  by_cases hprev : 0 < page.offset
  · simp [prevPage, follow, buildPaginationRow, hlimit, hprev]
  · by_cases hnext : page.offset + page.limit < page.total
    · simp [prevPage, follow, buildPaginationRow, hlimit, hprev, hnext, hne]
    · simp [prevPage, follow, buildPaginationRow, hlimit, hprev, hnext]

/-! ## A list that came whole -/

section
variable {α : Type} (items : List α) (limit : Int)

/-- A page holds one element at least. -/
def clampedLimit : Nat := if limit < 1 then 1 else limit.toNat

theorem clampedLimit_pos : 0 < clampedLimit limit := by
  unfold clampedLimit
  split <;> omega

/-- A page at an offset a button leads to. -/
theorem paginate_eq {o : Nat} (ho : o = 0 ∨ o < items.length) :
    paginate items limit o =
      ((items.drop o).take (clampedLimit limit), ⟨items.length, clampedLimit limit, o⟩) := by
  have hlimit : (if limit < 1 then 1 else limit) = (clampedLimit limit : Int) := by
    unfold clampedLimit
    split
    · rfl
    · omega
  have hoffset : (if (o : Int) < 0 ∨ (items.length : Int) ≤ o then 0 else (o : Int)) = o := by
    split
    · omega
    · rfl
  rw [paginate, hlimit, hoffset]
  rfl

/-- Where the Next button of the page at an offset leads, and where the Prev button. -/
def nextFrom (o : Int) : Option Int := nextPage (paginate items limit o).2
def prevFrom (o : Int) : Option Int := prevPage (paginate items limit o).2

theorem nextFrom_eq {o : Nat} (ho : o = 0 ∨ o < items.length) :
    nextFrom items limit o =
      (nextOffset (clampedLimit limit) items.length o).map Int.ofNat := by
  have hpos := clampedLimit_pos limit
  rw [nextFrom, paginate_eq items limit ho, nextPage_eq (by simp only; omega), nextOffset]
  simp only
  by_cases h : o + clampedLimit limit < items.length
  · rw [if_pos h, if_pos (by omega)]
    rfl
  · rw [if_neg h, if_neg (by omega)]
    rfl

theorem prevFrom_eq {o : Nat} (ho : o = 0 ∨ o < items.length) :
    prevFrom items limit o =
      if o = 0 then none else some ((o - clampedLimit limit : Nat) : Int) := by
  have hpos := clampedLimit_pos limit
  rw [prevFrom, paginate_eq items limit ho, prevPage_eq (by simp only; omega)]
  simp only
  by_cases h : o = 0
  · rw [if_pos h, if_neg (by omega)]
  · rw [if_neg h, if_pos (by omega), Option.some.injEq]
    split <;> omega

/-- The Next buttons, from the first page on. -/
theorem walk_nextFrom {os : List Nat}
    (hos : Walk (nextOffset (clampedLimit limit) items.length) 0 os) :
    Walk (nextFrom items limit) 0 (os.map Int.ofNat) :=
  hos.map fun _ ho => nextFrom_eq items limit (hos.lt_of_mem _ ho)

def backOffset (limit o : Nat) : Option Nat := if o = 0 then none else some (o - limit)

theorem backOffset_nextOffset {limit total o o' : Nat} (hlimit : 0 < limit)
    (h : nextOffset limit total o = some o') : backOffset limit o' = some o := by
  unfold nextOffset at h
  split at h
  · cases h
    rw [backOffset, if_neg (by omega), Nat.add_sub_cancel]
  · cases h

/-- The Prev buttons, from any page the Next buttons lead to. -/
theorem walk_prevFrom {os pre post : List Nat} {o : Nat}
    (hos : Walk (nextOffset (clampedLimit limit) items.length) 0 os) (heq : os = pre ++ o :: post) :
    Walk (prevFrom items limit) o (o :: pre.reverse.map Int.ofNat) := by
  have hprev : ∀ o ∈ os, prevFrom items limit o =
      (backOffset (clampedLimit limit) o).map Int.ofNat := by
    intro o ho
    rw [prevFrom_eq items limit (hos.lt_of_mem o ho), backOffset]
    split <;> rfl
  have hfirst : Walk (backOffset (clampedLimit limit)) 0 [0] := .last (if_pos rfl)
  have hback := hos.back
    (fun _ _ _ => backOffset_nextOffset (clampedLimit_pos limit)) hfirst heq
  rw [List.append_nil] at hback
  refine hback.map fun o' ho' => hprev o' ?_
  rw [heq]
  rcases List.mem_cons.1 ho' with rfl | ho'
  · exact List.mem_append_right _ List.mem_cons_self
  · exact List.mem_append_left _ (List.mem_reverse.1 ho')

/-- A button left open while the list shrank. -/
theorem paginate_ne_nil (hne : items ≠ []) (offset : Int) :
    (paginate items limit offset).1 ≠ [] := by
  have hlen : 0 < items.length := List.length_pos_iff.2 hne
  refine List.ne_nil_of_length_pos ?_
  rw [paginate]
  simp only [List.length_take, List.length_drop]
  split <;> split <;> omega

end

/-- For every list and every limit. -/
theorem local_paging {α : Type} (items : List α) (limit : Int) :
    (∃ os : List Int, Walk (nextFrom items limit) 0 os ∧
      (∀ os', Walk (nextFrom items limit) 0 os' → os' = os) ∧
      (os.flatMap fun o => (paginate items limit o).1) = items ∧
      ∀ pre o post, os = pre ++ o :: post →
        Walk (prevFrom items limit) o (o :: pre.reverse)) ∧
    ∀ (shrunk : List α) (offset : Int), shrunk ≠ [] → (paginate shrunk limit offset).1 ≠ [] := by
  obtain ⟨os, hos⟩ := exists_walk (clampedLimit_pos limit) items.length 0
  refine ⟨⟨os.map Int.ofNat, walk_nextFrom items limit hos, ?_, ?_, ?_⟩, ?_⟩
  · intro os' hos'
    exact hos'.unique (walk_nextFrom items limit hos)
  · have hpages : ∀ o ∈ os, (paginate items limit (Int.ofNat o)).1 =
        (items.drop o).take (clampedLimit limit) := by
      intro o ho
      exact congrArg Prod.fst (paginate_eq items limit (hos.lt_of_mem o ho))
    rw [List.flatMap_map, List.flatMap_congr hpages, hos.flatMap_pages, List.drop_zero]
  · intro pre o post heq
    obtain ⟨pre, rest, rfl, rfl, hrest⟩ := List.map_eq_append_iff.1 heq
    obtain ⟨o, post, rfl, rfl, rfl⟩ := List.map_eq_cons_iff.1 hrest
    rw [← List.map_reverse]
    exact walk_prevFrom items limit hos rfl
  · intro shrunk offset hne
    exact paginate_ne_nil shrunk limit hne offset

end TradingBroker.Bot
