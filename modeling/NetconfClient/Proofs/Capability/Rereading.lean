/-
  NetconfClient/Proofs/Capability/Rereading.lean
  ==============================================
  **When a capability is read back from the text that it is announced by.**

  The text is the URI and, behind a `?`, the parameters in the order of their keys.
  Reading it removes the blanks at its end: these are blanks of the last parameter,
  or of the URI if there are no parameters (`parse_render_query`,
  `parse_render_bare`).  A parameter without key and value leaves an empty piece,
  which is skipped.  So a capability is read back exactly if its text does not end
  with a blank and it has no such parameter (`read_back_iff`), and any capability but
  the one without a text is read back as some capability.
-/
import NetconfClient.Capability.Basic
import NetconfClient.Proofs.Text.Dictionary
import NetconfClient.Proofs.Text.Trim

namespace NetconfClient

open Text

namespace Capability

/-! ## 1. What is read -/

/-- What holds of every capability that is read. -/
structure Formed (c : Capability) : Prop where
  uri_mark : '?' ∉ c.uri.toList
  uri_head : ∀ x ∈ c.uri.toList.head?, x ≠ ':' ∧ isBlank x = false
  key_sign : ∀ pair ∈ c.params.entries, '=' ∉ pair.1.toList
  key_mark : ∀ pair ∈ c.params.entries, '&' ∉ pair.1.toList
  value_mark : ∀ pair ∈ c.params.entries, '&' ∉ pair.2.toList

theorem subset_cut (sep : Char) (cs : List Char) :
    (cut sep cs).1 ⊆ cs ∧ ((cut sep cs).2.getD []) ⊆ cs := by
  cases hback : (cut sep cs).2 with
  | none =>
    rw [cut_none hback]
    exact ⟨List.Subset.refl cs, List.nil_subset cs⟩
  | some back =>
    have hcs := cut_some hback
    constructor
    · intro x hx
      rw [hcs]
      exact List.mem_append_left _ hx
    · intro x hx
      rw [hcs]
      exact List.mem_append_right _ (List.mem_cons_of_mem _ hx)

theorem head?_cut {sep x : Char} {cs : List Char} (h : x ∈ (cut sep cs).1.head?) :
    x ∈ cs.head? := by
  cases cs with
  | nil => exact h
  | cons c rest =>
    by_cases hc : c = sep
    · rw [hc, cut_cons_self] at h
      cases h
    · rwa [cut_cons_of_ne rest hc] at h

/-- What stands around the part of a full URI that comes from the short form. -/
def surroundings : List (String × String) :=
  [(capabilityUrn, ""), (capabilityUrn, ":1.0"), (baseUrn, ""), (baseUrn, "1.0")]

theorem exists_expand (short : List Char) :
    ∃ front text tail, (front, tail) ∈ surroundings ∧ text ⊆ short ∧
      (expand short).toList = front.toList ++ (text ++ tail.toList) := by
  have hname : short.dropWhile (· == ':') ⊆ short := (List.dropWhile_sublist _).subset
  dsimp only [expand]
  split
  · next front version hcut =>
    split
    · refine ⟨baseUrn, version, "", by decide, ?_, by simp⟩
      have hback := (subset_cut ':' (short.dropWhile (· == ':'))).2
      rw [hcut] at hback
      exact List.Subset.trans hback hname
    · exact ⟨capabilityUrn, _, "", by decide, hname, by simp⟩
  · split
    · exact ⟨baseUrn, [], "1.0", by decide, List.nil_subset _, by simp⟩
    · exact ⟨capabilityUrn, _, ":1.0", by decide, hname, by simp⟩

theorem head?_expand (short : List Char) : (expand short).toList.head? = some 'u' := by
  have hall : ∀ pair ∈ surroundings, pair.1.toList.head? = some 'u' := by decide
  obtain ⟨front, text, tail, hmem, -, heq⟩ := exists_expand short
  rw [heq, List.head?_append, hall _ hmem]
  rfl

theorem notMem_expand {short : List Char} (h : '?' ∉ short) : '?' ∉ (expand short).toList := by
  have hall : ∀ pair ∈ surroundings, '?' ∉ pair.1.toList ∧ '?' ∉ pair.2.toList := by decide
  obtain ⟨front, text, tail, hmem, htext, heq⟩ := exists_expand short
  obtain ⟨hfront, htail⟩ := hall _ hmem
  rw [heq, List.mem_append, List.mem_append]
  rintro (hx | hx | hx)
  · exact hfront hx
  · exact h (htext hx)
  · exact htail hx

theorem notMem_of_mem_splitOn {sep : Char} {cs piece : List Char} (h : piece ∈ cs.splitOn sep) :
    sep ∉ piece := by
  induction cs generalizing piece with
  | nil =>
    rw [List.splitOn_nil, List.mem_singleton] at h
    rw [h]
    exact List.not_mem_nil
  | cons c rest ih =>
    rw [List.splitOn_cons_eq_if_modifyHead] at h
    split at h
    · rcases List.mem_cons.mp h with rfl | h
      · exact List.not_mem_nil
      · exact ih h
    · next hc =>
      obtain ⟨first, more, hsplit⟩ := List.exists_cons_of_ne_nil (List.splitOn_ne_nil sep rest)
      rw [hsplit, List.modifyHead_cons] at h
      rcases List.mem_cons.mp h with rfl | h
      · have hfirst := ih (hsplit ▸ List.mem_cons_self)
        intro hmem
        rcases List.mem_cons.mp hmem with rfl | hmem
        · exact hc (beq_self_eq_true _)
        · exact hfirst hmem
      · exact ih (hsplit ▸ List.mem_cons_of_mem first h)

/-- Every parameter is the pair of a piece of the query. -/
theorem exists_piece {query : List Char} {pair : String × String}
    (h : pair ∈ (paramsOf query).entries) : ∃ piece, '&' ∉ piece ∧ pair = pairOf piece := by
  obtain ⟨piece, hpiece, rfl⟩ := List.mem_map.mp (Dictionary.mem_ofPairs h)
  exact ⟨piece, notMem_of_mem_splitOn (List.mem_filter.mp hpiece).1, rfl⟩

/-- **Every capability that is read is well formed.** -/
theorem formed_of_parse {s : String} {c : Capability} (h : parse s = .ok c) : c.Formed := by
  have hblank : ∀ x ∈ (cut '?' (trim s.toList)).1.head?, isBlank x = false :=
    fun x hx => of_mem_head?_trimWhile (head?_cut hx)
  have hmark := notMem_cut_fst '?' (trim s.toList)
  rw [parse, ofTrimmed] at h
  split at h
  · cases h
  · cases h
    refine ⟨?_, ?_, ?_, ?_, ?_⟩
    · dsimp only
      split
      · exact notMem_expand hmark
      · rwa [String.toList_ofList]
    · dsimp only
      split
      · rw [head?_expand]
        rintro x hx
        cases hx
        decide
      · next hhead =>
        rw [String.toList_ofList]
        intro x hx
        refine ⟨?_, hblank x hx⟩
        rintro rfl
        exact hhead hx
    · intro pair hpair
      obtain ⟨piece, -, rfl⟩ := exists_piece hpair
      dsimp only [pairOf]
      rw [String.toList_ofList]
      exact notMem_cut_fst '=' piece
    · intro pair hpair
      obtain ⟨piece, hpiece, rfl⟩ := exists_piece hpair
      dsimp only [pairOf]
      rw [String.toList_ofList]
      exact fun hx => hpiece ((subset_cut '=' piece).1 hx)
    · intro pair hpair
      obtain ⟨piece, hpiece, rfl⟩ := exists_piece hpair
      dsimp only [pairOf]
      rw [String.toList_ofList]
      exact fun hx => hpiece ((subset_cut '=' piece).2 hx)

/-- Whether there is a text that is read as a capability. -/
def IsRead (c : Capability) : Prop := ∃ s, parse s = .ok c

theorem IsRead.formed {c : Capability} (h : c.IsRead) : c.Formed := by
  obtain ⟨s, hs⟩ := h
  exact formed_of_parse hs

/-- No URI is taken for a short form. -/
theorem Formed.head?_ne {c : Capability} (h : c.Formed) : c.uri.toList.head? ≠ some ':' :=
  fun hhead => (h.uri_head ':' hhead).1 rfl

/-! ## 2. What is written -/

/-- The text behind the `?`. -/
def queryText (params : Dictionary) : List Char :=
  ['&'].intercalate (params.entries.map fun pair => (renderPair pair).toList)

theorem toList_renderParams (separator : String) (pair : String × String)
    (rest : List (String × String)) :
    (renderParams separator (pair :: rest)).toList =
      separator.toList ++
        ['&'].intercalate ((pair :: rest).map fun pair => (renderPair pair).toList) := by
  induction rest generalizing separator pair with
  | nil => simp [renderParams]
  | cons next rest ih =>
    rw [renderParams, String.toList_append, String.toList_append, ih, List.map_cons, List.map_cons,
      List.map_cons, List.intercalate_cons_cons, List.append_assoc, List.append_assoc]
    rfl

theorem toList_render_bare {c : Capability} (h : c.params.entries = []) :
    c.render.toList = c.uri.toList := by
  rw [render, h, renderParams, String.append_empty]

theorem toList_render_query {c : Capability} (h : c.params.entries ≠ []) :
    c.render.toList = c.uri.toList ++ '?' :: queryText c.params := by
  obtain ⟨pair, rest, hentries⟩ := List.exists_cons_of_ne_nil h
  rw [render, String.toList_append, hentries, toList_renderParams, queryText, hentries]
  rfl

theorem toList_renderPair (pair : String × String) :
    (renderPair pair).toList =
      if pair.2 = "" then pair.1.toList else pair.1.toList ++ '=' :: pair.2.toList := by
  rw [renderPair]
  split
  · rfl
  · rw [String.toList_append, String.toList_append, List.append_assoc]
    rfl

theorem renderPair_eq_nil_iff (pair : String × String) :
    (renderPair pair).toList = [] ↔ pair = ("", "") := by
  obtain ⟨key, value⟩ := pair
  rw [toList_renderPair, Prod.mk.injEq]
  dsimp only
  split
  · next hvalue => rw [String.toList_eq_nil_iff, and_iff_left hvalue]
  · next hvalue => simp [hvalue]

/-- A parameter is read back from its text. -/
theorem pairOf_renderPair {pair : String × String} (h : '=' ∉ pair.1.toList) :
    pairOf (renderPair pair).toList = pair := by
  rw [toList_renderPair]
  split
  · next hvalue =>
    rw [pairOf, cut_of_notMem h]
    exact Prod.ext String.ofList_toList hvalue.symm
  · rw [pairOf, cut_append_cons _ h]
    dsimp only [Option.getD_some]
    rw [String.ofList_toList, String.ofList_toList]

/-- What is written of a pair is not longer than the piece that it was read from. -/
theorem length_renderPair_le (piece : List Char) :
    (renderPair (pairOf piece)).toList.length ≤ piece.length := by
  have hback : ∀ back, (cut '=' piece).2 = some back →
      piece.length = (cut '=' piece).1.length + 1 + back.length := by
    intro back h
    conv_lhs => rw [cut_some h]
    simp [Nat.add_assoc, Nat.add_comm]
  rw [toList_renderPair]
  split
  · dsimp only [pairOf]
    rw [String.toList_ofList]
    cases h : (cut '=' piece).2 with
    | none => rw [cut_none h]
    | some back =>
      rw [hback back h]
      omega
  · next hvalue =>
    dsimp only [pairOf] at hvalue ⊢
    cases h : (cut '=' piece).2 with
    | none =>
      rw [h] at hvalue
      exact absurd rfl hvalue
    | some back =>
      simp [hback back h]
      omega

/-! ## 3. Reading what is written -/

/-- The pieces of the query are the parameters. -/
theorem splitOn_queryText {c : Capability} (hc : c.Formed) (hquery : c.params.entries ≠ []) :
    (queryText c.params).splitOn '&' = c.params.entries.map fun pair => (renderPair pair).toList := by
  have hmark : ∀ piece ∈ c.params.entries.map fun pair => (renderPair pair).toList,
      '&' ∉ piece := by
    intro piece hpiece
    obtain ⟨pair, hpair, rfl⟩ := List.mem_map.mp hpiece
    rw [toList_renderPair]
    split
    · exact hc.key_mark pair hpair
    · simp [hc.key_mark pair hpair, hc.value_mark pair hpair]
  rw [queryText, List.splitOn_intercalate _ hmark (by simpa using hquery)]

theorem map_pairOf_renderPair {pairs : List (String × String)}
    (h : ∀ pair ∈ pairs, '=' ∉ pair.1.toList) :
    (pairs.map fun pair => (renderPair pair).toList).map pairOf = pairs := by
  rw [List.map_map]
  conv_rhs => rw [← List.map_id pairs]
  exact List.map_congr_left fun pair hpair => pairOf_renderPair (h pair hpair)

/-- **The parameters are read back**, but for the one without key and value. -/
theorem entries_paramsOf_queryText {c : Capability} (hc : c.Formed) :
    (paramsOf (queryText c.params)).entries = c.params.entries.filter (· ≠ ("", "")) := by
  have hpieces : ((queryText c.params).splitOn '&').filter (· ≠ []) =
      (c.params.entries.map fun pair => (renderPair pair).toList).filter (· ≠ []) := by
    by_cases hne : c.params.entries = []
    · rw [queryText, hne]
      rfl
    · rw [splitOn_queryText hc hne]
  have hpairs : (((queryText c.params).splitOn '&').filter (· ≠ [])).map pairOf =
      c.params.entries.filter (· ≠ ("", "")) := by
    have hfilter : c.params.entries.filter
        ((fun piece => decide (piece ≠ [])) ∘ fun pair => (renderPair pair).toList) =
          c.params.entries.filter (· ≠ ("", "")) := by
      refine List.filter_congr fun pair _ => ?_
      simp only [Function.comp, ne_eq, renderPair_eq_nil_iff]
    rw [hpieces, List.filter_map, hfilter]
    exact map_pairOf_renderPair fun pair hpair => hc.key_sign pair (List.mem_filter.mp hpair).1
  rw [paramsOf, hpairs]
  exact Dictionary.entries_ofPairs (c.params.ordered.sublist List.filter_sublist)

theorem length_intercalate_succ (sep : Char) {pieces : List (List Char)} (h : pieces ≠ []) :
    ([sep].intercalate pieces).length + 1 = (pieces.map fun piece => piece.length + 1).sum := by
  induction pieces with
  | nil => exact absurd rfl h
  | cons piece pieces ih =>
    cases pieces with
    | nil => simp
    | cons next rest =>
      rw [List.intercalate_cons_cons, List.map_cons, List.sum_cons, ← ih (List.cons_ne_nil _ _)]
      simp
      omega

/-- **Parameters are not written longer than they were read.** -/
theorem length_queryText_le (query : List Char) :
    (queryText (paramsOf query)).length ≤ query.length := by
  by_cases hne : (paramsOf query).entries = []
  · rw [queryText, hne]
    exact Nat.zero_le _
  · refine Nat.le_of_succ_le_succ ?_
    calc (queryText (paramsOf query)).length + 1
        = ((paramsOf query).entries.map fun pair => (renderPair pair).toList.length + 1).sum := by
          rw [queryText, length_intercalate_succ _ (by simpa using hne), List.map_map]
          rfl
      _ ≤ ((((query.splitOn '&').filter (· ≠ [])).map pairOf).map
            fun pair => (renderPair pair).toList.length + 1).sum :=
          Dictionary.sum_ofPairs_le _ _
      _ ≤ (((query.splitOn '&').filter (· ≠ [])).map fun piece => piece.length + 1).sum := by
          rw [List.map_map]
          exact List.sum_le_sum fun piece _ => Nat.succ_le_succ (length_renderPair_le piece)
      _ ≤ ((query.splitOn '&').map fun piece => piece.length + 1).sum :=
          (List.filter_sublist.map _).sum_le_sum fun n _ => Nat.zero_le n
      _ = query.length + 1 := by
          rw [← length_intercalate_succ '&' (List.splitOn_ne_nil _ _),
            List.intercalate_splitOn]

/-- **Without parameters the URI is read**, and loses the blanks at its end. -/
theorem parse_render_bare {c : Capability} (hc : c.Formed) (hbare : c.params.entries = [])
    (huri : c.uri ≠ "") : parse c.render = .ok ⟨trimString c.uri, .empty⟩ := by
  obtain ⟨x, rest, hcs⟩ := List.exists_cons_of_ne_nil (mt String.toList_eq_nil_iff.mp huri)
  obtain ⟨hcolon, hblank⟩ := hc.uri_head x (by rw [hcs]; rfl)
  -- the first character stays, and it is no colon
  have htrim : trim c.uri.toList = x :: dropEndWhile isBlank rest := by
    rw [trim, trimWhile_eq_dropEndWhile fun y hy => (hc.uri_head y hy).2, hcs]
    exact dropEndWhile_append_cons hblank [] rest
  have hmark : '?' ∉ trim c.uri.toList := by
    obtain ⟨front, tail, hwhole, -, -⟩ := exists_trimWhile isBlank c.uri.toList
    intro hx
    apply hc.uri_mark
    rw [hwhole]
    exact List.mem_append_right _ (List.mem_append_left _ hx)
  rw [parse, toList_render_bare hbare, ofTrimmed, cut_of_notMem hmark, if_neg, trimString]
  · dsimp only
    rw [if_neg]
    · rfl
    · rw [htrim]
      simpa using hcolon
  · rw [htrim]
    simp [hcolon]

/-- Only the parameters lose something at their end. -/
theorem trim_render_query {c : Capability} (hc : c.Formed) (hquery : c.params.entries ≠ []) :
    trim c.render.toList = c.uri.toList ++ '?' :: dropEndWhile isBlank (queryText c.params) := by
  have hfirst : ∀ x ∈ (c.uri.toList ++ '?' :: queryText c.params).head?, isBlank x = false := by
    intro x hx
    cases hcs : c.uri.toList with
    | nil =>
      rw [hcs] at hx
      cases hx
      decide
    | cons y rest =>
      rw [hcs] at hx
      exact (hc.uri_head x (by rw [hcs]; exact hx)).2
  rw [trim, toList_render_query hquery, trimWhile_eq_dropEndWhile hfirst,
    dropEndWhile_append_cons (by decide)]

/-- **In front of parameters the URI stays as it is**, and the parameters are read from a
    text that has lost the blanks at its end. -/
theorem parse_render_query {c : Capability} (hc : c.Formed) (hquery : c.params.entries ≠ []) :
    parse c.render = .ok ⟨c.uri, paramsOf (dropEndWhile isBlank (queryText c.params))⟩ := by
  rw [parse, trim_render_query hc hquery, ofTrimmed, cut_append_cons _ hc.uri_mark, if_neg]
  · dsimp only
    rw [if_neg]
    · rw [String.ofList_toList]
      rfl
    · exact fun hhead => (hc.uri_head ':' hhead).1 rfl
  · rintro (hnil | hcolon)
    · simp at hnil
    · have hmem : '?' ∈ c.uri.toList ++ '?' :: dropEndWhile isBlank (queryText c.params) := by simp
      rw [hcolon] at hmem
      exact absurd hmem (by decide)

/-! ## 4. Reading back -/

variable {s : String} {c : Capability}

theorem ext {d : Capability} (huri : c.uri = d.uri)
    (hparams : c.params.entries = d.params.entries) : c = d := by
  obtain ⟨uri, params⟩ := c
  obtain ⟨uri', params'⟩ := d
  obtain rfl : uri = uri' := huri
  obtain rfl : params = params' := Dictionary.ext hparams
  rfl

theorem read_back_bare (hc : c.Formed) (hbare : c.params.entries = []) (huri : c.uri ≠ "") :
    parse c.render = .ok c ↔ trimString c.render = c.render := by
  have hrender : c.render = c.uri := String.toList_inj.mp (toList_render_bare hbare)
  rw [parse_render_bare hc hbare huri, hrender]
  constructor
  · intro h
    exact congrArg Capability.uri (Except.ok.inj h)
  · intro h
    exact congrArg Except.ok (ext h hbare.symm)

/-- Parameters that are read back have lost nothing at their end. -/
theorem dropEndWhile_of_read_back
    (h : paramsOf (dropEndWhile isBlank (queryText c.params)) = c.params) :
    dropEndWhile isBlank (queryText c.params) = queryText c.params := by
  have hlength := length_queryText_le (dropEndWhile isBlank (queryText c.params))
  rw [h] at hlength
  obtain ⟨tail, htail, -⟩ := exists_dropEndWhile isBlank (queryText c.params)
  have htotal := congrArg List.length htail
  rw [List.length_append] at htotal
  obtain rfl : tail = [] := List.eq_nil_of_length_eq_zero (by omega)
  rw [List.append_nil] at htail
  exact htail.symm

theorem read_back_query (hc : c.Formed) (hquery : c.params.entries ≠ []) :
    parse c.render = .ok c ↔ trimString c.render = c.render ∧ ("", "") ∉ c.params.entries := by
  have hend : trimString c.render = c.render ↔
      dropEndWhile isBlank (queryText c.params) = queryText c.params := by
    rw [← String.toList_inj, toList_trimString, trim_render_query hc hquery,
      toList_render_query hquery, List.append_cancel_left_eq, List.cons_inj_right]
  have hfilter : c.params.entries.filter (· ≠ ("", "")) = c.params.entries ↔
      ("", "") ∉ c.params.entries := by
    rw [List.filter_eq_self]
    constructor
    · intro h hmem
      simpa using h _ hmem
    · intro h pair hpair
      exact decide_eq_true fun heq => h (heq ▸ hpair)
  rw [parse_render_query hc hquery, hend, ← hfilter, ← entries_paramsOf_queryText hc]
  constructor
  · intro h
    have hparams := congrArg Capability.params (Except.ok.inj h)
    have hkept := dropEndWhile_of_read_back hparams
    refine ⟨hkept, ?_⟩
    rw [← hkept]
    exact congrArg Dictionary.entries hparams
  · rintro ⟨hkept, hentries⟩
    rw [hkept]
    exact congrArg Except.ok (ext rfl hentries)

/-- **When a capability is read back.**  Its text is read as some capability unless it is
    empty.  The URI stays as it is in front of parameters, else it loses the blanks at its
    end; and the capability is the same exactly if nothing is trimmed off its text and it has
    no parameter without key and value. -/
theorem read_back_iff (h : parse s = .ok c) :
    ((∃ d, parse c.render = .ok d) ↔ c.render ≠ "") ∧
      (∀ d, parse c.render = .ok d →
        d.uri = if c.params.entries = [] then trimString c.uri else c.uri) ∧
      (parse c.render = .ok c ↔
        c.render ≠ "" ∧ trimString c.render = c.render ∧ ("", "") ∉ c.params.entries) := by
  have hc := formed_of_parse h
  by_cases hempty : c.render = ""
  · have hrefused : ∀ d, parse c.render ≠ .ok d := by
      rw [hempty]
      exact nofun
    exact ⟨⟨fun ⟨d, hd⟩ => absurd hd (hrefused d), fun hne => absurd hempty hne⟩,
      fun d hd => absurd hd (hrefused d), fun hd => absurd hd (hrefused c),
      fun hd => absurd hempty hd.1⟩
  by_cases hquery : c.params.entries = []
  · have huri : c.uri ≠ "" := by
      intro huri
      rw [render, hquery, huri] at hempty
      exact hempty rfl
    have hread := parse_render_bare hc hquery huri
    refine ⟨⟨fun _ => hempty, fun _ => ⟨_, hread⟩⟩, ?_, ?_⟩
    · intro d hd
      rw [hread] at hd
      rw [if_pos hquery, ← Except.ok.inj hd]
    · rw [read_back_bare hc hquery huri, hquery]
      simp [hempty]
  · have hread := parse_render_query hc hquery
    refine ⟨⟨fun _ => hempty, fun _ => ⟨_, hread⟩⟩, ?_, ?_⟩
    · intro d hd
      rw [hread] at hd
      rw [if_neg hquery, ← Except.ok.inj hd]
    · rw [read_back_query hc hquery, and_iff_right hempty]

/-- Every part of a capability that is read back: a short form, parameters out of order, one
    of them given twice, one without a value, and one with a second `=`. -/
theorem read_back_iff_reordered :
    ∃ c, parse " :candidate ?b==&&a=&b=1=2&c= x" = .ok c ∧
      c.render = "urn:ietf:params:netconf:capability:candidate :1.0?a&b=1=2&c= x" ∧
      parse c.render = .ok c := by
  refine ⟨⟨"urn:ietf:params:netconf:capability:candidate :1.0",
    .ofPairs [("a", ""), ("b", "1=2"), ("c", " x")]⟩, by decide +kernel, by decide +kernel, ?_⟩
  exact (read_back_iff (s := " :candidate ?b==&&a=&b=1=2&c= x") (by decide +kernel)).2.2.mpr
    (by decide +kernel)

/-- **Not every capability is read back**: the blank in front of a `?` without parameters is
    the end of the text, so is one that was in front of the `&`, a `?` alone leaves no text,
    and a `=` alone leaves an empty piece. -/
theorem not_read_back :
    (¬ ∀ s c, parse s = .ok c → parse c.render = .ok c) ∧
      (parse ":base:1.1 ?" = .ok ⟨"urn:ietf:params:netconf:base:1.1 ", .empty⟩ ∧
        parse "urn:ietf:params:netconf:base:1.1 " =
          .ok ⟨"urn:ietf:params:netconf:base:1.1", .empty⟩) ∧
      (parse "urn:a?b=1 &a" = .ok ⟨"urn:a", .ofPairs [("a", ""), ("b", "1 ")]⟩ ∧
        render ⟨"urn:a", .ofPairs [("a", ""), ("b", "1 ")]⟩ = "urn:a?a&b=1 " ∧
        parse "urn:a?a&b=1 " = .ok ⟨"urn:a", .ofPairs [("a", ""), ("b", "1")]⟩) ∧
      (parse "?" = .ok ⟨"", .empty⟩ ∧ render ⟨"", .empty⟩ = "" ∧
        parse "" = .error (.capabilityExchange "empty capability")) ∧
      parse "urn:a?=" = .ok ⟨"urn:a", .ofPairs [("", "")]⟩ ∧
      render ⟨"urn:a", .ofPairs [("", "")]⟩ = "urn:a?" ∧
      parse "urn:a?" = .ok ⟨"urn:a", .empty⟩ := by
  refine ⟨?_, by decide +kernel⟩
  intro hall
  have hback := hall "?" ⟨"", .empty⟩ (by decide +kernel)
  cases hback

end Capability
end NetconfClient
