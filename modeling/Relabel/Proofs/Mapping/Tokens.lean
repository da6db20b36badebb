import Mathlib.Data.List.Basic
import Relabel.Descriptor

/-!
# Class names in descriptors

Renaming cuts a descriptor into segments, so a renamed descriptor is cut where it was before, as
long as no new name holds the `;` that ends a name. One renaming after another is then a renaming
itself.

## Main results

- `Descriptor.segments_rename`: the segments of a renamed descriptor.
- `Descriptor.rename_rename`, `Descriptor.rename_andThen`: two renamings in a row.
- `Descriptor.exists_of_rename_eq`: where a renaming makes two descriptors one.
-/

namespace Relabel.Descriptor

variable {f g h : ClassMap} {name acc s rest : List Char} {desc : String}

/-! ### Cutting -/

/-- Up to the next `;` a text behind an `L` is a name. -/
theorem segmentsFrom_append_semicolon (hs : ';' ∉ s) :
    segmentsFrom (some acc) (s ++ ';' :: rest) =
      .className (acc.reverse ++ s) :: segmentsFrom none rest := by
  induction s generalizing acc with
  | nil => simp [segmentsFrom]
  | cons c s ih =>
    rw [List.mem_cons, not_or] at hs
    rw [List.cons_append, segmentsFrom, if_neg (Ne.symm hs.1), ih hs.2]
    simp

/-- Without a `;` a text behind an `L` is no name. -/
theorem segmentsFrom_of_not_mem (hs : ';' ∉ s) :
    segmentsFrom (some acc) s = .char 'L' :: (acc.reverse ++ s).map .char := by
  induction s generalizing acc with
  | nil => simp [segmentsFrom]
  | cons c s ih =>
    rw [List.mem_cons, not_or] at hs
    rw [segmentsFrom, if_neg (Ne.symm hs.1), ih hs.2]
    simp

/-- The class name that a segment holds. -/
def Segment.token? : Segment → Option String
  | .char _ => none
  | .className name => some (String.ofList name)

/-- The class names in a descriptor. -/
def tokens (desc : String) : List String :=
  (segments desc.toList).filterMap Segment.token?

/-- The tokens are the classes among the segments. -/
theorem mem_tokens : String.ofList name ∈ tokens desc ↔
    .className name ∈ segments desc.toList := by
  rw [tokens, List.mem_filterMap]
  constructor
  · rintro ⟨segment, hsegment, htoken⟩
    cases segment with
    | char c => cases htoken
    | className name' =>
      obtain rfl := String.ofList_injective (Option.some.inj htoken)
      exact hsegment
  · intro hsegment
    exact ⟨_, hsegment, rfl⟩

/-! ### Renaming -/

/-- A map gives no class in a text a name that holds a `;`. -/
def ClassMap.Clean (f : ClassMap) (segments : List Segment) : Prop :=
  ∀ name, .className name ∈ segments → ';' ∉ f.image name

/-- No new name of a map holds this character. -/
def ClassMap.Avoids (f : ClassMap) (c : Char) : Prop :=
  ∀ name new, f name = some new → c ∉ new.toList

/-- An image avoids what the names and the map avoid. -/
theorem ClassMap.Avoids.not_mem_image {c : Char} (hf : f.Avoids c) (hname : c ∉ name) :
    c ∉ f.image name := by
  rw [ClassMap.image]
  split
  · next new hnew => exact hf _ _ hnew
  · exact hname

/-- A class name in a text ends before the first `;`. -/
theorem not_mem_of_className_mem {state : Option (List Char)} (hstate : ∀ acc ∈ state, ';' ∉ acc)
    (h : .className name ∈ segmentsFrom state s) : ';' ∉ name := by
  fun_induction segmentsFrom state s with
  | case1 => cases h
  | case2 rest ih => exact ih (by simp) h
  | case3 c rest hc ih => exact ih (by simp) (List.mem_of_ne_of_mem (by simp) h)
  | case4 acc => simp at h
  | case5 acc rest ih =>
    rcases List.mem_cons.1 h with heq | hrest
    · rw [Segment.className.inj heq, List.mem_reverse]
      exact hstate acc rfl
    · exact ih (by simp) hrest
  | case6 acc c rest hc ih =>
    -- The character is not the end of the name, so the name read so far stays without one.
    refine ih ?_ h
    rintro _ ⟨⟩
    rw [List.mem_cons, not_or]
    exact ⟨Ne.symm hc, hstate acc rfl⟩

/-- A map that gives names without a `;` names without a `;` does so in every text. -/
theorem ClassMap.clean_segments
    (hf : ∀ name new, ';' ∉ name.toList → f name = some new → ';' ∉ new.toList) (desc : String) :
    f.Clean (segments desc.toList) := by
  intro name hname
  have hold : ';' ∉ name := not_mem_of_className_mem (by simp) hname
  rw [ClassMap.image]
  split
  · next new hnew => exact hf _ _ (by rwa [String.toList_ofList]) hnew
  · exact hold

/-- Behind a renaming the text is cut where it was before. -/
theorem segmentsFrom_rename {state : Option (List Char)} (hstate : ∀ acc ∈ state, ';' ∉ acc)
    (hclean : f.Clean (segmentsFrom state s)) :
    segmentsFrom none ((segmentsFrom state s).flatMap fun x => (x.rename f).chars) =
      (segmentsFrom state s).map (Segment.rename f) := by
  fun_induction segmentsFrom state s with
  | case1 => rfl
  | case2 rest ih => exact ih (by simp) hclean
  | case3 c rest hc ih =>
    have hrest := ih (by simp) fun name hname => hclean name (List.mem_cons_of_mem _ hname)
    rw [List.flatMap_cons, Segment.rename, Segment.chars, List.singleton_append, segmentsFrom,
      if_neg hc, hrest, List.map_cons, Segment.rename]
  | case4 acc =>
    -- Nothing is renamed behind an `L` that starts no name.
    have hacc : ';' ∉ acc.reverse := by
      rw [List.mem_reverse]
      exact hstate acc rfl
    have htext : (acc.reverse.map Segment.char).flatMap (fun x => (x.rename f).chars) =
        acc.reverse := by
      rw [List.flatMap_map]
      exact List.flatMap_singleton' _
    rw [List.flatMap_cons, htext, Segment.rename, Segment.chars, List.singleton_append,
      segmentsFrom, if_pos rfl, segmentsFrom_of_not_mem hacc]
    simp [Segment.rename]
  | case5 acc rest ih =>
    have hrest := ih (by simp) fun name hname => hclean name (List.mem_cons_of_mem _ hname)
    have himage : ';' ∉ f.image acc.reverse := hclean _ List.mem_cons_self
    rw [List.flatMap_cons, Segment.rename, Segment.chars, List.cons_append, List.cons_append,
      List.append_assoc, List.singleton_append, segmentsFrom, if_pos rfl,
      segmentsFrom_append_semicolon himage, hrest]
    rfl
  | case6 acc c rest hc ih =>
    refine ih ?_ hclean
    rintro _ ⟨⟩
    rw [List.mem_cons, not_or]
    exact ⟨Ne.symm hc, hstate acc rfl⟩

/-- The segments of a renamed descriptor are those of the descriptor, renamed. -/
theorem segments_rename (hclean : f.Clean (segments desc.toList)) :
    segments (rename f desc).toList = (segments desc.toList).map (Segment.rename f) := by
  rw [rename, String.toList_ofList]
  exact segmentsFrom_rename (by simp) hclean

/-- Two renamings in a row come to a third where they do so for the class names. -/
theorem rename_rename (hclean : f.Clean (segments desc.toList))
    (himage : ∀ name, .className name ∈ segments desc.toList →
      g.image (f.image name) = h.image name) :
    rename g (rename f desc) = rename h desc := by
  rw [rename, segments_rename hclean, rename, List.flatMap_map]
  refine congrArg String.ofList (List.flatMap_congr fun segment hsegment => ?_)
  cases segment with
  | char c => rfl
  | className name => rw [Segment.rename, Segment.rename, Segment.rename, himage name hsegment]

/-- One class map after another. A class that neither gives a new name keeps the one it has. -/
def ClassMap.andThen (f g : ClassMap) : ClassMap := fun name =>
  let middle := (f name).getD name
  some ((g middle).getD middle)

/-- The image of a class name, as a text. -/
theorem ClassMap.image_toList (f : ClassMap) (token : String) :
    f.image token.toList = ((f token).getD token).toList := by
  rw [ClassMap.image, String.ofList_toList]
  cases f token <;> rfl

/-- The image under two maps is the second image of the first. -/
theorem ClassMap.image_andThen (f g : ClassMap) (name : List Char) :
    (f.andThen g).image name = g.image (f.image name) := by
  rw [← String.toList_ofList (l := name), image_toList, image_toList, image_toList]
  rfl

/-- Renaming with one map and then with another is renaming with both at once, in any text: no name
that the first map gives can be cut elsewhere than the name it stands for. -/
theorem rename_andThen (hf : f.Avoids ';') (g : ClassMap) (desc : String) :
    rename g (rename f desc) = rename (f.andThen g) desc := by
  refine rename_rename (fun name hname => ?_) fun name _ => (ClassMap.image_andThen f g name).symm
  exact hf.not_mem_image (not_mem_of_className_mem (by simp) hname)

/-- A new name that looks like the start of a class, and a text that ends inside of one. -/
theorem rename_andThen_unfinished :
    let f : ClassMap := fun name => if name = "a" then some "L(b" else none
    let g : ClassMap := fun name => if name = "L(b" then some "d;" else some "e"
    f.Avoids ';' ∧ f.andThen g "a" = some "d;" ∧
      rename g (rename f ")La;[Lc;;La") = ")Ld;;[Le;;La" := by
  intro f g
  have hf : f.Avoids ';' := by
    intro name new hnew
    simp only [f] at hnew
    split at hnew
    · obtain rfl := Option.some.inj hnew
      decide
    · cases hnew
  exact ⟨hf, by decide, (rename_andThen hf g _).trans (by decide)⟩

/-- Class maps that give each class of a descriptor one name rename it alike. -/
theorem rename_congr (hsame : ∀ name ∈ tokens desc, (f name).getD name = (g name).getD name) :
    rename f desc = rename g desc := by
  refine congrArg String.ofList (List.flatMap_congr fun segment hsegment => ?_)
  cases segment with
  | char c => rfl
  | className name =>
    have himage : f.image name = g.image name := by
      rw [← String.toList_ofList (l := name), ClassMap.image_toList, ClassMap.image_toList,
        hsame _ (mem_tokens.2 hsegment)]
    rw [Segment.rename, Segment.rename, himage]

/-- Different segments that a renaming makes one are class names that it makes one. -/
theorem Segment.exists_of_rename_eq {s s' : Segment} (hne : s ≠ s')
    (hrename : s.rename f = s'.rename f) :
    ∃ x ∈ s.token?, ∃ y ∈ s'.token?, x ≠ y ∧ (f x).getD x = (f y).getD y := by
  cases s with
  | char c =>
    cases s' with
    | char c' => exact absurd hrename hne
    | className name' => cases hrename
  | className name =>
    cases s' with
    | char c' => cases hrename
    | className name' =>
      have himage : f.image name = f.image name' := Segment.className.inj hrename
      refine ⟨_, rfl, _, rfl, fun heq => hne (congrArg _ (String.ofList_injective heq)), ?_⟩
      rw [← String.toList_inj, ← ClassMap.image_toList, ← ClassMap.image_toList,
        String.toList_ofList, String.toList_ofList, himage]

/-- Different descriptors that a renaming makes one hold, at one place, different class names that
it makes one. -/
theorem exists_of_rename_eq {desc' : String} (hclean : f.Clean (segments desc.toList))
    (hclean' : f.Clean (segments desc'.toList)) (hne : desc ≠ desc')
    (hrename : rename f desc = rename f desc') :
    ∃ x ∈ tokens desc, ∃ y ∈ tokens desc', x ≠ y ∧ (f x).getD x = (f y).getD y := by
  have hmap : (segments desc.toList).map (Segment.rename f) =
      (segments desc'.toList).map (Segment.rename f) := by
    rw [← segments_rename hclean, ← segments_rename hclean', hrename]
  -- Texts that differ have segments that differ somewhere, since the segments spell the text.
  obtain ⟨i, hi⟩ : ∃ i, (segments desc.toList)[i]? ≠ (segments desc'.toList)[i]? := by
    by_contra! hsame
    have htext := congrArg (List.flatMap Segment.chars) (List.ext_getElem? hsame)
    rw [flatMap_chars_segments, flatMap_chars_segments] at htext
    exact hne (String.toList_injective htext)
  -- There the two segments are renamed alike.
  have hat : (segments desc.toList)[i]?.map (Segment.rename f) =
      (segments desc'.toList)[i]?.map (Segment.rename f) := by
    rw [← List.getElem?_map, hmap, List.getElem?_map]
  cases hs : (segments desc.toList)[i]? with
  | none => simp_all
  | some s =>
    cases hs' : (segments desc'.toList)[i]? with
    | none => simp_all
    | some s' =>
      rw [hs, hs'] at hat hi
      obtain ⟨x, hx, y, hy, hxy⟩ :=
        Segment.exists_of_rename_eq (fun heq => hi (congrArg some heq)) (Option.some.inj hat)
      exact ⟨x, List.mem_filterMap.2 ⟨s, List.mem_of_getElem? hs, hx⟩, y,
        List.mem_filterMap.2 ⟨s', List.mem_of_getElem? hs', hy⟩, hxy⟩

end Relabel.Descriptor
