import Rehearsal.Client.ResourceName

/-!
# Paths are read if they are rendered

Taking the front and the back off a text succeeds for the texts that have something between the two,
and for no others (`Template.between?_eq_some_iff`), also where the two could share characters.  So a
path is read as an identifier if and only if it is rendered from one segment
(`Template.parse?_eq_some_iff`).  A rendered path shows its template and its identifier
(`Template.render_inj`), whether or not the identifier is one segment.
-/

namespace Rehearsal.Client

namespace Template

/-- An identifier that is one segment of a path. -/
def Segment (id : String) : Prop := id ≠ "" ∧ '/' ∉ id.toList

theorem isSegment_iff (id : String) : isSegment id.toList = true ↔ Segment id := by
  simp [isSegment, Segment]

/-! ## Fronts and backs -/

section

variable {front back text middle : List Char}

theorem between?_append (front middle back : List Char) :
    between? front back (front ++ middle ++ back) = some middle := by
  have hfront : front.isPrefixOf (front ++ middle ++ back) = true := by
    rw [List.append_assoc, List.isPrefixOf_iff_prefix]
    exact List.prefix_append front _
  have hrest : (front ++ middle ++ back).drop front.length = middle ++ back := by
    rw [List.append_assoc, List.drop_left]
  have hback : back.isSuffixOf (middle ++ back) = true := by
    rw [List.isSuffixOf_iff_suffix]
    exact List.suffix_append middle back
  have hlength : (front ++ middle ++ back).length - front.length - back.length =
      middle.length := by
    rw [List.length_append, List.length_append]
    omega
  rw [between?, hfront, hrest, hback, hlength, List.take_left]
  rfl

theorem eq_append_of_between? (h : between? front back text = some middle) :
    text = front ++ middle ++ back := by
  by_cases hends : front.isPrefixOf text && back.isSuffixOf (text.drop front.length)
  · obtain ⟨hfront, hback⟩ := (Bool.and_eq_true _ _).mp hends
    obtain ⟨rest, rfl⟩ := List.isPrefixOf_iff_prefix.1 hfront
    rw [List.drop_left] at hback
    obtain ⟨between, rfl⟩ := List.isSuffixOf_iff_suffix.1 hback
    rw [← List.append_assoc] at h ⊢
    rw [between?_append] at h
    cases h
    rfl
  · rw [between?, if_neg hends] at h
    cases h

theorem between?_eq_some_iff :
    between? front back text = some middle ↔ text = front ++ middle ++ back := by
  constructor
  · exact eq_append_of_between?
  · rintro rfl
    exact between?_append front middle back

end

/-! ## Paths -/

variable {template other : Template} {path id id' : String}

theorem toList_render (template : Template) (id : String) :
    (template.render id).toList = front ++ id.toList ++ template.back := String.toList_ofList

/-- A path is read if and only if it is rendered from one segment. -/
theorem parse?_eq_some_iff :
    template.parse? path = some id ↔ path = template.render id ∧ Segment id := by
  rw [parse?, Option.map_eq_some_iff, ← String.toList_inj, toList_render]
  constructor
  · rintro ⟨chars, hchars, rfl⟩
    obtain ⟨hbetween, hsegment⟩ := Option.filter_eq_some_iff.1 hchars
    rw [← isSegment_iff, String.toList_ofList]
    exact ⟨between?_eq_some_iff.1 hbetween, hsegment⟩
  · rintro ⟨hpath, hsegment⟩
    refine ⟨id.toList, Option.filter_eq_some_iff.2 ⟨between?_eq_some_iff.2 hpath, ?_⟩,
      String.ofList_toList⟩
    exact (isSegment_iff id).2 hsegment

theorem parse?_render_iff : template.parse? (template.render id) = some id ↔ Segment id := by
  rw [parse?_eq_some_iff, and_iff_right rfl]

theorem getLast?_render (template : Template) (id : String) :
    (template.render id).toList.getLast? = template.back.getLast? := by
  rw [toList_render]
  cases template <;> simp [back]

/-- The templates end in different characters, and with one template the identifier is what is left
of the path. -/
theorem render_inj : template.render id = other.render id' ↔ template = other ∧ id = id' := by
  constructor
  · intro h
    have hlast := getLast?_render template id
    rw [h, getLast?_render] at hlast
    have hsame : template = other := by
      cases template <;> cases other <;> first | rfl | cases hlast
    subst hsame
    have hchars := congrArg String.toList h
    rw [toList_render, toList_render] at hchars
    exact ⟨rfl, String.toList_inj.1
      (List.append_cancel_left (List.append_cancel_right hchars))⟩
  · rintro ⟨rfl, rfl⟩
    rfl

/-- A path is not read by another template than its own. -/
theorem parse?_render_of_ne (h : other ≠ template) (id : String) :
    other.parse? (template.render id) = none := by
  rw [Option.eq_none_iff_forall_ne_some]
  intro id' hread
  exact h (render_inj.1 (parse?_eq_some_iff.1 hread).1).1.symm

end Template

open Template (single first)

/-- A path is read as an identifier if and only if it is rendered from it and it is one segment.  So
reading and rendering undo each other, and no path is read by both templates.  Paths of different
identifiers are different, segments or not, and a path of one template is never read by the other. -/
theorem paths_read_iff_rendered :
    (∀ (template : Template) (path id : String),
      template.parse? path = some id ↔ path = template.render id ∧ id ≠ "" ∧ '/' ∉ id.toList) ∧
    (∀ (template : Template) (id : String),
      template.parse? (template.render id) = some id ↔ id ≠ "" ∧ '/' ∉ id.toList) ∧
    (∀ (template : Template) (path id : String),
      template.parse? path = some id → template.render id = path) ∧
    (∀ path, single.parse? path = none ∨ first.parse? path = none) ∧
    (∀ template : Template, Function.Injective template.render) ∧
    ∀ id, first.parse? (single.render id) = none ∧ single.parse? (first.render id) = none := by
  refine ⟨fun template path id => Template.parse?_eq_some_iff,
    fun template id => Template.parse?_render_iff, ?_, fun path => ?_, ?_, fun id => ⟨?_, ?_⟩⟩
  · intro template path id hread
    exact (Template.parse?_eq_some_iff.1 hread).1.symm
  · cases hread : single.parse? path with
    | none => exact .inl rfl
    | some id =>
        right
        rw [(Template.parse?_eq_some_iff.1 hread).1]
        exact Template.parse?_render_of_ne (by decide) id
  · intro template id id' h
    exact (Template.render_inj.1 h).2
  · exact Template.parse?_render_of_ne (by decide) id
  · exact Template.parse?_render_of_ne (by decide) id

/-- A path of one segment is read and rendered again.  An identifier that ends like a path of the other
template is not taken for one, and a path without an identifier, where the front and the back would
share a slash, is not read. -/
theorem paths_read_iff_rendered_likeOther :
    single.parse? "id/42/single" = some "42" ∧ single.render "42" = "id/42/single" ∧
    single.render "a/first" ≠ single.render "a" ∧ first.parse? "id/a/first/single" = none ∧
    single.parse? "id/single" = none ∧ single.parse? "id//single" = none := by
  obtain ⟨reads, -, renders, -, injective, crossed⟩ := paths_read_iff_rendered
  have hread : single.parse? "id/42/single" = some "42" := (reads _ _ _).2 (by decide)
  exact ⟨hread, renders single _ _ hread, (injective single).ne (by decide),
    (crossed "a/first").1, by decide, by decide⟩

end Rehearsal.Client
