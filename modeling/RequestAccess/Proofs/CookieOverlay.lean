import RequestAccess.Proofs.CookieRoundTrip
import RequestAccess.Proofs.HeaderStore
import RequestAccess.Request

/-!
# Cookies of several headers

The cookies of a request are those of its cookie headers, laid one over the other from left to
right.
-/

namespace RequestAccess

/-! ## Overlays -/

section Overlay

variable {α : Type}

/-- The entries of both maps. Of two entries of one name that of the second map is kept. -/
def NameMap.overlay (m n : NameMap α) : NameMap α :=
  n.entries.foldl (fun m e => m.insert e.1 e.2) m

theorem NameMap.get?_overlay (m n : NameMap α) (name : String) :
    (m.overlay n).get? name = (n.get? name).or (m.get? name) :=
  get?_foldl_insert n.sorted m name

end Overlay

namespace CookieJar

/-- The cookies of both jars. Of two cookies of one name that of the second jar is kept. -/
def overlay (j k : CookieJar) : CookieJar := { j with cookies := j.cookies.overlay k.cookies }

theorem get?_overlay (j k : CookieJar) (name : String) :
    (j.overlay k).get? name = (k.get? name).or (j.get? name) :=
  j.cookies.get?_overlay k.cookies name

/-- The cookies of headers, laid one over the other from left to right. -/
def overlaid (headers : List String) : CookieJar := (headers.map ofHeader).foldl overlay sealed

/-! ## Headers in a row -/

theorem foldl_file_pairs (header : String) (j : CookieJar) :
    (pairs header.toList).foldl file j = j.overlay (ofHeader header) := by
  refine ext_get? (fun name => ?_) (readonly_foldl_file _ j)
  rw [get?_overlay, get?_foldl_file, get?_ofHeader]

theorem overlaid_eq (headers : List String) :
    overlaid headers = (headers.flatMap fun header => pairs header.toList).foldl file sealed := by
  have hfold (j : CookieJar) : (headers.map ofHeader).foldl overlay j =
      (headers.flatMap fun header => pairs header.toList).foldl file j := by
    induction headers generalizing j with
    | nil => rfl
    | cons header rest ih =>
      rw [List.map_cons, List.foldl_cons, ih, List.flatMap_cons, List.foldl_append,
        foldl_file_pairs]
  exact hfold sealed

theorem ofHeader_join (headers : List String) :
    ofHeader (Text.join "; " headers) = overlaid headers := by
  rw [ofHeader, pairs_join, overlaid_eq]

theorem ofHeader_append (a b : String) :
    ofHeader (a ++ "; " ++ b) = (ofHeader a).overlay (ofHeader b) := by
  have hchars : (a ++ "; " ++ b).toList = a.toList ++ ';' :: ' ' :: b.toList := by simp
  rw [← foldl_file_pairs, ofHeader, hchars, pairs_append, pairs_blank, List.foldl_append, ofHeader]

theorem filterMap_pair? {pieces : List (List Char)} (h : ∀ p ∈ pieces, ';' ∉ p) :
    pieces.filterMap pair? = (pieces.filter fun p => (pair? p).isSome).flatMap pairs := by
  induction pieces with
  | nil => rfl
  | cons p rest ih =>
    obtain ⟨hp, hrest⟩ := List.forall_mem_cons.mp h
    cases hc : pair? p with
    | none =>
      rw [List.filterMap_cons_none hc, List.filter_cons_of_neg (by simp [hc]), ih hrest]
    | some c =>
      rw [List.filterMap_cons_some hc, List.filter_cons_of_pos (by simp [hc]), ih hrest,
        List.flatMap_cons, pairs_of_piece hp, hc]
      rfl

theorem ofHeader_pieces (header : String) : ofHeader header =
    overlaid (((Text.pieces ';' header.toList).filter fun p => (pair? p).isSome).map
      String.ofList) := by
  have hpieces := filterMap_pair? fun p (hp : p ∈ Text.pieces ';' header.toList) =>
    Text.not_mem_of_mem_pieces hp
  simp only [ofHeader, overlaid_eq, pairs, List.flatMap_map, String.toList_ofList]
  rw [hpieces]
  rfl

end CookieJar

/-! ## The cookies of a request -/

theorem Request.cookies_ofBlock (method : Method) (path : String) (b : HeaderBlock) :
    (ofHeaders method path (.ofBlock b)).cookies = .overlaid (b.texts "cookie") := by
  have hname : headerName? "cookie" = some "cookie" := by decide +kernel
  have htexts := (Headers.holds_ofBlock b).texts hname
  rw [ofHeaders, cookieHeader, htexts, CookieJar.ofHeader_join]

/-- The cookies of a request are those of its readable cookie headers, laid one over the other from
left to right. A header that is no visible text adds none and changes none, and neither does a piece
of a header that names no cookie. Two headers in a row are read as one. -/
theorem cookie_headers_overlay (method : Method) (path : String) :
    (∀ b : HeaderBlock, (Request.ofHeaders method path (.ofBlock b)).cookies =
      .overlaid (b.texts "cookie")) ∧
    (∀ (b c : HeaderBlock) (l : HeaderLine), l.text? = none →
      (Request.ofHeaders method path (.ofBlock (b ++ l :: c))).cookies =
        (Request.ofHeaders method path (.ofBlock (b ++ c))).cookies) ∧
    (∀ header, CookieJar.ofHeader header =
      .overlaid (((Text.pieces ';' header.toList).filter fun p =>
        (CookieJar.pair? p).isSome).map String.ofList)) ∧
    (∀ a b, CookieJar.ofHeader (a ++ "; " ++ b) =
      (CookieJar.ofHeader a).overlay (CookieJar.ofHeader b)) ∧
    ∀ (j k : CookieJar) (name : String),
      (j.overlay k).get? name = (k.get? name).or (j.get? name) := by
  refine ⟨Request.cookies_ofBlock method path, fun b c l hl => ?_, CookieJar.ofHeader_pieces,
    CookieJar.ofHeader_append, CookieJar.get?_overlay⟩
  have htexts : HeaderBlock.texts (b ++ l :: c) "cookie" = HeaderBlock.texts (b ++ c) "cookie" := by
    simp only [HeaderBlock.texts, HeaderBlock.named, List.filter_append, List.filterMap_append,
      List.filter_cons]
    split
    · rw [List.filterMap_cons_none hl]
    · rfl
  rw [Request.cookies_ofBlock, Request.cookies_ofBlock, htexts]

/-- A header between two others that is no text. -/
theorem cookie_headers_overlay_of_three :
    let first : HeaderLine := ⟨"cookie", Text.utf8 "a=1; b=2;", by decide, by decide +kernel⟩
    let unread : HeaderLine := ⟨"cookie", Text.utf8 "b=é", by decide, by decide +kernel⟩
    let last : HeaderLine := ⟨"cookie", Text.utf8 "bad; b=3", by decide, by decide +kernel⟩
    unread.text? = none ∧
      (Request.ofHeaders .get "/" (.ofBlock [first, unread, last])).cookies.render =
        "a=1; b=3" := by
  intro first unread last
  have hunread : unread.text? = none := by decide +kernel
  have hcookies := (cookie_headers_overlay .get "/").2.1 [first] [last] unread hunread
  refine ⟨hunread, ?_⟩
  change (Request.ofHeaders .get "/" (.ofBlock ([first] ++ unread :: [last]))).cookies.render = _
  rw [hcookies]
  decide +kernel

end RequestAccess
