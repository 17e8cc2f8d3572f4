/-
  NetconfClient/Proofs/Capability/Canonical.lean
  ==============================================
  **One text for each capability.**

  A query is written in pieces: a key and a value, a key alone, or nothing.  What
  is read of it depends only on the last value under each key (`parse_written`),
  so neither the order of different keys nor empty pieces make a difference.  The
  text that a capability is announced by can be taken apart again (`cut_render`),
  so different capabilities are announced by different texts (`one_text_for_each`).
-/
import Mathlib.Tactic.MkIffOfInductiveProp
import NetconfClient.Proofs.Capability.Rereading

namespace NetconfClient.Capability

open Text

/-! ## 1. Ways to write a capability -/

/-- Part of a query: nothing, a key alone, or a key and a value. -/
inductive Piece where
  | nothing
  | flag (key : String)
  | pair (key value : String)
  deriving DecidableEq

/-- Text without blanks. -/
def Solid (cs : List Char) : Prop := ∀ x ∈ cs, isBlank x = false

instance (cs : List Char) : Decidable (Solid cs) := List.decidableBAll _ cs

theorem solid_cons {c : Char} {cs : List Char} (hc : isBlank c = false) (h : Solid cs) :
    Solid (c :: cs) :=
  List.forall_mem_cons.mpr ⟨hc, h⟩

theorem Solid.append {cs ds : List Char} (hcs : Solid cs) (hds : Solid ds) : Solid (cs ++ ds) :=
  List.forall_mem_append.mpr ⟨hcs, hds⟩

theorem Solid.trim {cs : List Char} (h : Solid cs) : Text.trim cs = cs :=
  trimWhile_eq_self (fun x hx => h x (List.mem_of_mem_head? hx))
    fun x hx => h x (List.mem_of_mem_getLast? hx)

/-- A key that stays whole. -/
@[mk_iff]
structure IsKey (key : String) : Prop where
  ne_empty : key ≠ ""
  sign : '=' ∉ key.toList
  mark : '&' ∉ key.toList
  solid : Solid key.toList

/-- A value that stays whole. -/
@[mk_iff]
structure IsValue (value : String) : Prop where
  mark : '&' ∉ value.toList
  solid : Solid value.toList

/-- A text in front of the query that stays whole and is not empty. -/
@[mk_iff]
structure IsFront (front : String) : Prop where
  ne_empty : front ≠ ""
  ne_colon : front ≠ ":"
  mark : '?' ∉ front.toList
  solid : Solid front.toList

instance (key : String) : Decidable (IsKey key) := decidable_of_iff' _ (isKey_iff key)

instance (value : String) : Decidable (IsValue value) := decidable_of_iff' _ (isValue_iff value)

instance (front : String) : Decidable (IsFront front) := decidable_of_iff' _ (isFront_iff front)

namespace Piece

/-- The characters of a piece. -/
def chars : Piece → List Char
  | nothing => []
  | flag key => key.toList
  | pair key value => key.toList ++ '=' :: value.toList

/-- The parameter that a piece gives. -/
def param? : Piece → Option (String × String)
  | nothing => none
  | flag key => some (key, "")
  | pair key value => some (key, value)

/-- Whether key and value stay whole. -/
def Fits : Piece → Prop
  | nothing => True
  | flag key => IsKey key
  | pair key value => IsKey key ∧ IsValue value

instance : DecidablePred Fits
  | nothing => inferInstanceAs (Decidable True)
  | flag key => inferInstanceAs (Decidable (IsKey key))
  | pair key value => inferInstanceAs (Decidable (IsKey key ∧ IsValue value))

variable {piece : Piece}

theorem Fits.mark (h : piece.Fits) : '&' ∉ piece.chars := by
  cases piece with
  | nothing => exact List.not_mem_nil
  | flag key => exact IsKey.mark h
  | pair key value => simp [chars, h.1.mark, h.2.mark]

theorem Fits.solid (h : piece.Fits) : Solid piece.chars := by
  cases piece with
  | nothing => exact List.forall_mem_nil _
  | flag key => exact IsKey.solid h
  | pair key value => exact h.1.solid.append (solid_cons (by decide) h.2.solid)

theorem Fits.chars_eq_nil_iff (h : piece.Fits) : piece.chars = [] ↔ piece = nothing := by
  cases piece with
  | nothing => simp [chars]
  | flag key => simp [chars, IsKey.ne_empty h]
  | pair key value => simp [chars]

/-- A piece is read as the parameter that it gives. -/
theorem Fits.param?_eq (h : piece.Fits) (hne : piece ≠ nothing) :
    piece.param? = some (pairOf piece.chars) := by
  cases piece with
  | nothing => exact absurd rfl hne
  | flag key =>
    rw [chars, pairOf, cut_of_notMem (IsKey.sign h)]
    simp [param?]
  | pair key value =>
    rw [chars, pairOf, cut_append_cons _ h.1.sign]
    simp [param?]

end Piece

variable {front : String} {pieces : List Piece}

/-- The parameters that pieces give, in the order in which they stand. -/
def paramsIn (pieces : List Piece) : List (String × String) := pieces.filterMap Piece.param?

/-- The text of a query with its mark; without pieces there is none. -/
def queryChars : List Piece → List Char
  | [] => []
  | piece :: pieces => '?' :: ['&'].intercalate ((piece :: pieces).map Piece.chars)

/-- A capability as it may be written. -/
def written (front : String) (pieces : List Piece) : String :=
  String.ofList (front.toList ++ queryChars pieces)

/-- The URI that stands in front of a query, or is meant by the short form there. -/
def fullUri (front : String) : String :=
  if front.toList.head? = some ':' then expand front.toList else front

/-! ## 2. What is read of them -/

theorem map_pairOf_chars (h : ∀ piece ∈ pieces, piece.Fits) :
    ((pieces.map Piece.chars).filter (· ≠ [])).map pairOf = paramsIn pieces := by
  induction pieces with
  | nil => rfl
  | cons piece pieces ih =>
    have hpiece := h piece List.mem_cons_self
    have hrest := ih fun p hp => h p (List.mem_cons_of_mem piece hp)
    rw [List.map_cons, paramsIn]
    -- only the empty piece is filtered out, and only it gives no parameter
    by_cases hne : piece = .nothing
    · rw [List.filter_cons_of_neg (by simpa using hpiece.chars_eq_nil_iff.mpr hne), hne,
        List.filterMap_cons_none rfl]
      exact hrest
    · rw [List.filter_cons_of_pos (by simpa using mt hpiece.chars_eq_nil_iff.mp hne),
        List.filterMap_cons_some (hpiece.param?_eq hne), List.map_cons, hrest, paramsIn]

theorem solid_intercalate {parts : List (List Char)} (h : ∀ part ∈ parts, Solid part) :
    Solid (['&'].intercalate parts) := by
  induction parts with
  | nil => exact List.forall_mem_nil _
  | cons part parts ih =>
    have hpart := h part List.mem_cons_self
    have hrest := ih fun p hp => h p (List.mem_cons_of_mem part hp)
    cases parts with
    | nil =>
      rw [List.intercalate_singleton]
      exact hpart
    | cons next rest =>
      rw [List.intercalate_cons_cons, List.append_assoc]
      exact hpart.append (solid_cons (by decide) hrest)

theorem solid_queryChars (h : ∀ piece ∈ pieces, piece.Fits) : Solid (queryChars pieces) := by
  cases pieces with
  | nil => exact List.forall_mem_nil _
  | cons piece pieces =>
    refine solid_cons (by decide) (solid_intercalate ?_)
    intro part hpart
    obtain ⟨p, hp, rfl⟩ := List.mem_map.mp hpart
    exact (h p hp).solid

/-- **A capability is read**, whatever the pieces of its query. -/
theorem parse_written (hfront : IsFront front) (h : ∀ piece ∈ pieces, piece.Fits) :
    parse (written front pieces) = .ok ⟨fullUri front, .ofPairs (paramsIn pieces)⟩ := by
  have hne : front.toList ≠ [] := mt String.toList_eq_nil_iff.mp hfront.ne_empty
  have htrim := (hfront.solid.append (solid_queryChars h)).trim
  have hcut : cut '?' (front.toList ++ queryChars pieces) =
      (front.toList, (queryChars pieces).tail?) := by
    cases pieces with
    | nil => rw [queryChars, List.append_nil, cut_of_notMem hfront.mark]; rfl
    | cons piece pieces => exact cut_append_cons _ hfront.mark
  have hparams : paramsOf ((queryChars pieces).tail?.getD []) = .ofPairs (paramsIn pieces) := by
    cases pieces with
    | nil => rfl
    | cons piece pieces =>
      have hmark : ∀ part ∈ (piece :: pieces).map Piece.chars, '&' ∉ part := by
        intro part hpart
        obtain ⟨p, hp, rfl⟩ := List.mem_map.mp hpart
        exact (h p hp).mark
      rw [← map_pairOf_chars h, paramsOf]
      dsimp only [queryChars, List.tail?, Option.getD_some]
      rw [List.splitOn_intercalate _ hmark (List.cons_ne_nil _ _)]
  rw [parse, written, String.toList_ofList, htrim, ofTrimmed, if_neg, hcut]
  · dsimp only
    rw [hparams, String.ofList_toList, fullUri]
  · rintro (hnil | hcolon)
    · exact hne (List.append_eq_nil_iff.mp hnil).1
    · -- a colon alone would be the text in front
      rcases List.append_eq_singleton_iff.mp hcolon with ⟨hnil, -⟩ | ⟨hsame, -⟩
      · exact hne hnil
      · exact hfront.ne_colon (String.toList_inj.mp hsame)

/-! ## 3. What an announcement tells -/

variable {c d : Capability}

/-- The announcement of a capability is cut behind its URI. -/
theorem cut_render (hc : c.Formed) :
    cut '?' c.render.toList =
      (c.uri.toList, if c.params.entries = [] then none else some (queryText c.params)) := by
  split
  · next hbare => rw [toList_render_bare hbare, cut_of_notMem hc.uri_mark]
  · next hquery => rw [toList_render_query hquery, cut_append_cons _ hc.uri_mark]

/-- **The announcement tells capabilities apart.** -/
theorem render_inj (hc : c.Formed) (hd : d.Formed) : c.render = d.render ↔ c = d := by
  constructor
  · intro h
    have hcut := cut_render hc
    rw [h, cut_render hd, Prod.mk.injEq] at hcut
    obtain ⟨huri, hquery⟩ := hcut
    refine ext (String.toList_inj.mp huri.symm) ?_
    split at hquery
    · next hd' =>
      split at hquery
      · next hc' => rw [hc', hd']
      · cases hquery
    · next hd' =>
      split at hquery
      · cases hquery
      · next hc' =>
        -- the same query has the same pieces, and these are the parameters
        have hpieces := congrArg (fun query => (query.splitOn '&').map pairOf)
          (Option.some.inj hquery)
        rw [splitOn_queryText hc hc', splitOn_queryText hd hd', map_pairOf_renderPair hc.key_sign,
          map_pairOf_renderPair hd.key_sign] at hpieces
        exact hpieces.symm
  · rintro rfl
    rfl

/-- Capabilities are their URIs and what is found among their parameters. -/
theorem eq_iff_get? :
    c = d ↔ c.uri = d.uri ∧ ∀ key, c.params.get? key = d.params.get? key := by
  constructor
  · rintro rfl
    exact ⟨rfl, fun _ => rfl⟩
  · rintro ⟨huri, hparams⟩
    exact ext huri (congrArg Dictionary.entries (Dictionary.ext_get? hparams))

/-! ## 4. Main result -/

/-- **Each capability has one text.**  However a capability is written, it is read, and each of
    its parameters has the last value written for it; pieces that give the same parameters in
    another order, no key twice, are read as the same capability, and so are the pieces without
    the empty ones.  Capabilities that are read are equal exactly if they are announced by the
    same text, and exactly if they have the same URI and the same parameters. -/
theorem one_text_for_each :
    (∀ (front : String) (pieces : List Piece), IsFront front → (∀ piece ∈ pieces, piece.Fits) →
      ∃ c, parse (written front pieces) = .ok c ∧ c.uri = fullUri front ∧
        (∀ key, c.params.get? key = Dictionary.lastValue (paramsIn pieces) key) ∧
        (∀ others : List Piece, (∀ piece ∈ others, piece.Fits) →
          (paramsIn pieces).Perm (paramsIn others) → ((paramsIn pieces).map (·.1)).Nodup →
          parse (written front others) = .ok c) ∧
        parse (written front (pieces.filter (· ≠ .nothing))) = .ok c) ∧
    ∀ c d : Capability, c.IsRead → d.IsRead →
      (c = d ↔ c.render = d.render) ∧
      (c = d ↔ c.uri = d.uri ∧ ∀ key, c.params.get? key = d.params.get? key) := by
  constructor
  · intro front pieces hfront h
    refine ⟨_, parse_written hfront h, rfl, Dictionary.get?_ofPairs _, ?_, ?_⟩
    · intro others hothers hperm hkeys
      have hsame := Dictionary.ofPairs_eq_iff.mpr (Dictionary.lastValue_perm hperm hkeys)
      rw [parse_written hfront hothers, hsame]
    · have hsame : paramsIn (pieces.filter (· ≠ .nothing)) = paramsIn pieces := by
        rw [paramsIn, List.filterMap_filter, paramsIn]
        refine List.filterMap_congr fun piece _ => ?_
        cases piece <;> rfl
      rw [parse_written hfront fun piece hpiece => h piece (List.mem_filter.mp hpiece).1, hsame]
  · intro c d hc hd
    exact ⟨(render_inj hc.formed hd.formed).symm, eq_iff_get?⟩

/-- Three ways to write one capability, and its text; without one of the parameters it is
    another capability. -/
theorem one_text_for_each_reordered :
    ∃ c d, parse "urn:example:cap?module=foo&&x&rev=1=2?" = .ok c ∧
      parse "urn:example:cap?rev=1=2?&x=&module=foo" = .ok c ∧
      parse "urn:example:cap?module=foo&x&rev=1=2?" = .ok c ∧
      parse "urn:example:cap?module=foo&x" = .ok d ∧
      c.render = "urn:example:cap?module=foo&rev=1=2?&x" ∧ c ≠ d ∧ c.uri = d.uri ∧
      ∃ key, c.params.get? key ≠ d.params.get? key := by
  obtain ⟨c, hc, huri, hparams, hperm, hfilter⟩ := one_text_for_each.1 "urn:example:cap"
    [.pair "module" "foo", .nothing, .flag "x", .pair "rev" "1=2?"] (by decide) (by decide)
  let d : Capability := ⟨"urn:example:cap", .ofPairs [("module", "foo"), ("x", "")]⟩
  have hd : parse "urn:example:cap?module=foo&x" = .ok d := by decide +kernel
  have hwhole : c = ⟨"urn:example:cap", .ofPairs [("module", "foo"), ("rev", "1=2?"), ("x", "")]⟩ :=
    Except.ok.inj (hc.symm.trans (by decide +kernel))
  have hrender : c.render ≠ d.render := by rw [hwhole]; decide +kernel
  have hne : c ≠ d := mt (one_text_for_each.2 c d ⟨_, hc⟩ ⟨_, hd⟩).1.mp hrender
  refine ⟨c, d, hc, ?_, hfilter, hd, ?_, hne, huri, ?_⟩
  · exact hperm [.pair "rev" "1=2?", .pair "x" "", .pair "module" "foo"] (by decide) (by decide)
      (by decide)
  · rw [hwhole]
    decide +kernel
  · by_contra hsame
    exact hne ((one_text_for_each.2 c d ⟨_, hc⟩ ⟨_, hd⟩).2.mpr ⟨huri, by simpa using hsame⟩)

end NetconfClient.Capability
