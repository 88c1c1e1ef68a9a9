import Rocketcycle.Rkcy.Programs

/-!
# Expanded templates

The templates of APECS concerns are texts and tags, so that their strings are expanded alike in any order.
-/

namespace Rocketcycle.Definition
open Templates

/-- Without the marker of a tag. -/
def Plain (s : String) : Prop := '@' ∉ s.toList

instance (s : String) : Decidable (Plain s) := inferInstanceAs (Decidable ('@' ∉ s.toList))

/-- The entries of a map as replacements. -/
def substs (substMap : GoMap String String) : List (List Char × List Char) := substMap.entries.map fun e => (e.1.toList, e.2.toList)

/-! ## Strings -/

section
variable {substMap substMap' : GoMap String String} {s k v : String}

theorem substStr_toList : (substStr s substMap).toList = substAll (substs substMap) s.toList := by
  obtain ⟨entries, distinct⟩ := substMap
  unfold substStr substs
  dsimp only
  clear distinct
  induction entries generalizing s with
  | nil => rfl
  | cons e entries ih =>
    have first : (stringsReplaceAll s e.1 e.2).toList = replaceTags [(e.1.toList, e.2.toList)] 0 s.toList := String.toList_ofList
    rw [List.foldl_cons, ih, first]
    rfl

theorem substs_perm (same : substMap'.Same substMap) : (substs substMap').Perm (substs substMap) := (GoMap.same_iff_perm.1 same).map _

/-- A string that settles is expanded alike in any order. -/
theorem substStr_settled (tags : Tags '@' (substs substMap)) (settled : TagFree (substs substMap) s.toList) (same : substMap'.Same substMap) :
    substStr s substMap' = String.ofList (replaceTags (substs substMap) 0 s.toList) := by
  rw [← String.toList_inj, substStr_toList, tags.substAll_eq settled (substs_perm same), String.toList_ofList]

/-- Texts, each with a tag behind it, and a rest. The tag is given with its value. -/
def template (pieces : List (String × String × String)) (rest : String) : String := pieces.foldr (fun p s => p.1 ++ (p.2.1 ++ s)) rest

def filled (pieces : List (String × String × String)) (rest : String) : String := pieces.foldr (fun p s => p.1 ++ (p.2.2 ++ s)) rest

theorem substStr_template (tags : Tags '@' (substs substMap)) (pieces : List (String × String × String)) (rest : String)
    (texts : ∀ p ∈ pieces, Plain p.1 ∧ p.2 ∈ substMap.entries) (plain : Plain rest) (same : substMap'.Same substMap) :
    substStr (template pieces rest) substMap' = filled pieces rest := by
  have entry : ∀ e ∈ substMap.entries, (e.1.toList, e.2.toList) ∈ substs substMap := fun e he => List.mem_map_of_mem he
  have before : (template pieces rest).toList =
      (pieces.map fun p => (p.1.toList, (p.2.1.toList, p.2.2.toList))).flatMap (fun p => p.1 ++ p.2.1) ++ rest.toList := by
    induction pieces with
    | nil => rfl
    | cons p pieces ih =>
      have later := ih fun p hp => texts p (List.mem_cons_of_mem _ hp)
      show (p.1 ++ (p.2.1 ++ template pieces rest)).toList = _
      rw [String.toList_append, String.toList_append, later]
      simp only [List.map_cons, List.flatMap_cons, List.append_assoc]
  have after : (filled pieces rest).toList =
      (pieces.map fun p => (p.1.toList, (p.2.1.toList, p.2.2.toList))).flatMap (fun p => p.1 ++ p.2.2) ++ rest.toList := by
    clear before
    induction pieces with
    | nil => rfl
    | cons p pieces ih =>
      have later := ih fun p hp => texts p (List.mem_cons_of_mem _ hp)
      show (p.1 ++ (p.2.2 ++ filled pieces rest)).toList = _
      rw [String.toList_append, String.toList_append, later]
      simp only [List.map_cons, List.flatMap_cons, List.append_assoc]
  have result : replaceTags (substs substMap) 0 (template pieces rest).toList = (filled pieces rest).toList := by
    rw [before, after]
    refine tags.replaceTags_pieces ?_ plain
    intro p hp
    obtain ⟨p, mem, rfl⟩ := List.mem_map.1 hp
    exact ⟨(texts p mem).1, entry p.2 (texts p mem).2⟩
  have noMarker : '@' ∉ (filled pieces rest).toList := by
    rw [after]
    intro mem
    obtain mem | mem := List.mem_append.1 mem
    · obtain ⟨p, hp, mem⟩ := List.mem_flatMap.1 mem
      obtain ⟨p, mem', rfl⟩ := List.mem_map.1 hp
      obtain mem | mem := List.mem_append.1 mem
      · exact (texts p mem').1 mem
      · exact tags.plain _ (entry p.2 (texts p mem').2) mem
    · exact plain mem
  rw [substStr_settled tags (tags.settled_of_plain (by rw [result]; exact noMarker)) same, result, String.ofList_toList]

theorem substStr_plain (tags : Tags '@' (substs substMap)) (plain : Plain s) (same : substMap'.Same substMap) : substStr s substMap' = s :=
  substStr_template tags [] s (fun _ hp => absurd hp List.not_mem_nil) plain same

theorem substStr_tag (tags : Tags '@' (substs substMap)) (entry : (k, v) ∈ substMap.entries) (same : substMap'.Same substMap) :
    substStr k substMap' = v := by
  have empty : Plain "" := by decide
  have one := substStr_template tags [("", k, v)] "" (fun p hp => by
    rw [List.mem_singleton.1 hp]
    exact ⟨empty, entry⟩) empty same
  have before : template [("", k, v)] "" = k := by simp [template]
  have after : filled [("", k, v)] "" = v := by simp [filled]
  rw [before, after] at one
  exact one

/-- A plain string stays, and a tag is replaced. -/
theorem substStr_get (tags : Tags '@' (substs substMap)) (plain : Plain s ∨ (substMap.get s).isSome) (same : substMap'.Same substMap) :
    substStr s substMap' = (substMap.get s).getD s := by
  cases found : substMap.get s with
  | some v => exact substStr_tag tags (GoMap.get_eq_some.1 found) same
  | none =>
    rw [found] at plain
    obtain plain | some := plain
    · exact substStr_plain tags plain same
    · cases some

end

/-! ## The map of a partition -/

section
variable {platformName environment concernName brokers system topic : String} {args : AdminArgs} {i : Nat}

/-- No value has the marker. -/
structure PlainValues (platformName environment : String) (args : AdminArgs) (concernName brokers system topic : String) : Prop where
  platformName : Plain platformName
  environment : Plain environment
  streamType : Plain args.streamType
  adminBrokers : Plain args.adminBrokers
  otelcolEndpoint : Plain args.otelcolEndpoint
  concernName : Plain concernName
  brokers : Plain brokers
  system : Plain system
  topic : Plain topic

theorem plain_toString (i : Nat) : Plain (toString i) := by
  intro mem
  have mem : '@' ∈ (Nat.repr i).toList := mem
  rw [Nat.toList_repr] at mem
  have digit : ('@' : Char).isDigit = true := Nat.isDigit_of_mem_toDigits (by decide) (by decide) mem
  exact absurd digit (by decide)

theorem tagNames_marked : ∀ k ∈ tagNames, k.toList.head? = some '@' ∧ '@' ∉ k.toList.tail := by decide

theorem tagNames_apart : ∀ k ∈ tagNames, ∀ k' ∈ tagNames, k.toList <+: k'.toList → k = k' := by decide

theorem partitionSubsts_tags (plain : PlainValues platformName environment args concernName brokers system topic) :
    Tags '@' (substs (partitionSubsts platformName environment args concernName brokers system topic i)) where
  marked e he := by
    obtain ⟨e, mem, rfl⟩ := List.mem_map.1 he
    have name : e.1 ∈ tagNames := List.mem_map_of_mem (f := Prod.fst) mem
    obtain ⟨head, tail⟩ := tagNames_marked e.1 name
    exact ⟨e.1.toList.tail, (List.cons_head?_tail head).symm, tail⟩
  plain e he := by
    obtain ⟨e, mem, rfl⟩ := List.mem_map.1 he
    simp only [partitionSubsts, List.mem_cons, List.not_mem_nil, or_false] at mem
    obtain rfl | rfl | rfl | rfl | rfl | rfl | rfl | rfl | rfl | rfl := mem
    · exact plain.platformName
    · exact plain.environment
    · exact plain.streamType
    · exact plain.adminBrokers
    · exact plain.otelcolEndpoint
    · exact plain.concernName
    · exact plain.brokers
    · exact plain.system
    · exact plain.topic
    · exact plain_toString i
  apart e he e' he' front := by
    obtain ⟨e, mem, rfl⟩ := List.mem_map.1 he
    obtain ⟨e', mem', rfl⟩ := List.mem_map.1 he'
    have name : e.1 ∈ tagNames := List.mem_map_of_mem (f := Prod.fst) mem
    have name' : e'.1 ∈ tagNames := List.mem_map_of_mem (f := Prod.fst) mem'
    have same := tagNames_apart e.1 name e'.1 name' front
    rw [List.inj_on_of_nodup_map (partitionSubsts platformName environment args concernName brokers system topic i).distinct mem mem' same]

end

end Rocketcycle.Definition
