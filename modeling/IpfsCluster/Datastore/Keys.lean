import IpfsCluster.Golang.MapOrder
import IpfsCluster.Golang.Text

/-! # Datastores with hierarchical keys

A key is a clean absolute path, given by its components. A datastore maps keys to values, and a query for
a prefix returns the entries below it, in any order and with their keys as texts. Reading the text of a
key gives the key back, so that entries can be found again under another prefix by their last component.
-/

namespace IpfsCluster.Datastore

open Golang List

/-- A component that cleaning a path leaves as it is. -/
def Plain (part : String) : Prop := part ≠ "" ∧ part ≠ "." ∧ part ≠ ".." ∧ '/' ∉ part.toList

/-- A clean absolute path. -/
structure Key where
  parts : List String
  plain : ∀ part ∈ parts, Plain part
deriving DecidableEq

namespace Key

@[ext] theorem ext {k k' : Key} (same : k.parts = k'.parts) : k = k' := by
  obtain ⟨parts, plain⟩ := k
  obtain ⟨parts', plain'⟩ := k'
  cases same
  rfl

def string (k : Key) : String := "/" ++ join '/' k.parts

/-- Follow one component of a path: dots stay, two dots go up. -/
def follow (parts : List String) (part : String) : List String :=
  if part = "" ∨ part = "." then parts
  else if part = ".." then parts.dropLast
  else parts ++ [part]

variable {parts texts : List String}

theorem plain_follow {part : String} (plain : ∀ p ∈ parts, Plain p) (free : '/' ∉ part.toList) :
    ∀ p ∈ follow parts part, Plain p := by
  unfold follow
  split
  · exact plain
  next stays =>
    split
    · exact fun p member => plain p (mem_of_mem_dropLast member)
    next up =>
      intro p member
      rcases mem_append.mp member with before | last
      · exact plain p before
      · rw [mem_singleton.mp last]
        exact ⟨fun isEmpty => stays (Or.inl isEmpty), fun dot => stays (Or.inr dot), up, free⟩

theorem plain_foldl_follow (plain : ∀ p ∈ parts, Plain p) (free : ∀ text ∈ texts, '/' ∉ text.toList) :
    ∀ p ∈ texts.foldl follow parts, Plain p := by
  induction texts generalizing parts with
  | nil => exact plain
  | cons text rest ih =>
    exact ih (plain_follow plain (free text mem_cons_self)) fun t member => free t (mem_cons_of_mem _ member)

/-- The key of a text, which is cleaned. -/
def ofString (s : String) : Key where
  parts := (split '/' s).foldl follow []
  plain := plain_foldl_follow (fun _ => nofun) fun _ member => not_mem_of_mem_split member

theorem foldl_follow_plain (plain : ∀ text ∈ texts, Plain text) (parts : List String) :
    texts.foldl follow parts = parts ++ texts := by
  induction texts generalizing parts with
  | nil => rw [foldl_nil, append_nil]
  | cons text rest ih =>
    obtain ⟨notEmpty, notDot, notUp, -⟩ := plain text mem_cons_self
    rw [foldl_cons, ih fun t member => plain t (mem_cons_of_mem _ member), follow,
      if_neg (not_or.mpr ⟨notEmpty, notDot⟩), if_neg notUp, append_assoc]
    rfl

variable {text : String}

/-- A plain text is a key of one component. -/
theorem parts_ofString (plain : Plain text) : (ofString text).parts = [text] := by
  have one : split '/' text = [text] := by
    have joined : join '/' [text] = text := by
      rw [join, map_singleton, intercalate_singleton, String.ofList_toList]
    nth_rewrite 1 [← joined]
    refine split_join (fun part member => ?_) (cons_ne_nil _ _)
    rw [mem_singleton.mp member]
    exact plain.2.2.2
  change (split '/' text).foldl follow [] = [text]
  rw [one, foldl_follow_plain fun t member => by rwa [mem_singleton.mp member]]
  rfl

variable (k : Key)

include k

theorem split_string : split '/' k.string = "" :: if k.parts = [] then [""] else k.parts := by
  have slash (parts : List String) : "/" ++ join '/' parts = join '/' ("" :: if parts = [] then [""] else parts) := by
    cases parts with
    | nil => rfl
    | cons first rest =>
      rw [if_neg (cons_ne_nil _ _), join, join]
      simp only [map_cons, intercalate_cons_cons]
      apply String.toList_injective
      simp only [String.toList_append, String.toList_ofList]
      rfl
  rw [string, slash]
  refine split_join (fun part member => ?_) (cons_ne_nil _ _)
  rcases mem_cons.mp member with rfl | listed
  · exact not_mem_nil
  · split at listed
    · rw [mem_singleton.mp listed]
      exact not_mem_nil
    · exact (k.plain part listed).2.2.2

/-- The text of a key is read as the key. -/
theorem ofString_string : ofString k.string = k := by
  apply Key.ext
  change (split '/' k.string).foldl follow [] = k.parts
  rw [split_string, foldl_cons]
  change List.foldl follow [] _ = k.parts
  split
  next root =>
    rw [root]
    rfl
  · rw [foldl_follow_plain k.plain, nil_append]

/-- The key below another one. -/
def child (k k' : Key) : Key where
  parts := k.parts ++ k'.parts
  plain part member := (mem_append.mp member).elim (k.plain part) (k'.plain part)

/-- The last component. -/
def baseNamespace (k : Key) : String := k.parts.getLast?.getD ""

/-- Whether a key is a proper prefix of another one. -/
def above (k k' : Key) : Bool := k.parts.isPrefixOf k'.parts && k.parts ≠ k'.parts

theorem parts_child_ofString (plain : Plain text) : (k.child (ofString text)).parts = k.parts ++ [text] :=
  congrArg (k.parts ++ ·) (parts_ofString plain)

theorem baseNamespace_child_ofString (plain : Plain text) : (k.child (ofString text)).baseNamespace = text := by
  rw [baseNamespace, parts_child_ofString k plain, getLast?_append]
  rfl

theorem above_child_ofString (plain : Plain text) : k.above (k.child (ofString text)) = true := by
  rw [above, parts_child_ofString k plain, Bool.and_eq_true, isPrefixOf_iff_prefix, decide_eq_true_iff]
  refine ⟨prefix_append _ _, fun same => ?_⟩
  have count := congrArg List.length same
  rw [length_append, length_singleton] at count
  omega

end Key

/-- A map-like datastore. -/
abbrev Store (V : Type) := AList (fun _ : Key => V)

/-- The entries below a prefix, with their keys as texts. -/
def Store.query {V : Type} (store : Store V) (order : MapOrder) ( root : Key) : List (String × V) :=
  ((order.visit [] store.entries).filter fun entry => root.above entry.1).map fun entry => (entry.1.string, entry.2)

end IpfsCluster.Datastore
