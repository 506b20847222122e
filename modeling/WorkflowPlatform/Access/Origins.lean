import Mathlib.Data.List.Infix
import WorkflowPlatform.Foundation.Admission

/-! # Allowed origins

The list of allowed origins is shared by all requests and grows with them: a request
whose Origin header mentions `.onrender.com` anywhere adds it.
-/

namespace WorkflowPlatform

namespace Cors

/-! ## Origins -/

/-- The characters that separate the parts of a URI. -/
def genDelims : List Char := [':', '/', '?', '#', '[', ']', '@']

/-- A text without any of them, apart from some. -/
def isPlain (apart : List Char) (text : String) : Bool :=
  text.toList.all fun letter => letter ∉ genDelims || letter ∈ apart

theorem not_mem_of_isPlain {apart : List Char} {text : String} (hplain : isPlain apart text = true)
    {letter : Char} (hdelimiter : letter ∈ genDelims) (hletter : letter ∉ apart) :
    letter ∉ text.toList := by
  intro hmem
  have hallowed := List.all_eq_true.mp hplain letter hmem
  simp [hdelimiter, hletter] at hallowed

/-- Reading up to a delimiter passes such a text. -/
theorem ne_of_isPlain {apart : List Char} {text : String} (hplain : isPlain apart text = true)
    {delimiter : Char} (hdelimiter : delimiter ∈ genDelims) (hapart : delimiter ∉ apart) :
    ∀ letter ∈ text.toList, decide (letter ≠ delimiter) = true := by
  intro letter hletter
  apply decide_eq_true
  intro heq
  exact not_mem_of_isPlain hplain hdelimiter hapart (heq ▸ hletter)

/-- The host of an origin: a name, or an address in brackets. -/
inductive Host
  | name (text : String) (plain : isPlain [] text = true)
  | address (text : String) (plain : isPlain [':'] text = true)

/-- The host as it is written. -/
def Host.text : Host → String
  | name text _ => text
  | address text _ => "[" ++ text ++ "]"

/-- `scheme://host[:port]`. -/
structure Origin where
  scheme : String
  host : Host
  port : Option String
  scheme_plain : isPlain [] scheme = true
  port_digits : ∀ digits ∈ port, digits.toList.all Char.isDigit = true

def Origin.portText (origin : Origin) : String :=
  match origin.port with
  | some digits => ":" ++ digits
  | none => ""

/-- The Origin header. -/
def Origin.render (origin : Origin) : String :=
  origin.scheme ++ "://" ++ origin.host.text ++ origin.portText

/-- A host below a domain; names do not depend on the case of their letters. -/
def Host.IsSubdomainOf (host : Host) (domain : String) : Prop :=
  ∃ label, label ≠ [] ∧ host.text.toList.map Char.toLower = label ++ '.' :: domain.toList

/-! ## The middleware -/

/-- `needle in text`. -/
def contains (needle text : String) : Bool := decide (needle.toList <:+: text.toList)

/-- `dynamic_cors`: the allowed origins after a request with an Origin header. -/
def dynamicCors (allowed : List String) (header : Option String) : List String :=
  match header with
  | some origin =>
      if origin ≠ "" ∧ contains ".onrender.com" origin = true then
        if origin ∉ allowed then allowed ++ [origin] else allowed
      else allowed
  | none => allowed

/-- A request; a preflight is answered before it reaches `dynamic_cors`. -/
structure HttpRequest where
  origin : Option Origin
  isPreflight : Bool

/-- The allowed origins after a request. -/
def handle (allowed : List String) (request : HttpRequest) : List String :=
  if request.isPreflight then allowed
  else dynamicCors allowed (request.origin.map Origin.render)

/-- The origins that are configured by default. -/
def backendCorsOrigins : List String :=
  ["http://localhost:3000",
    "https://antigravity-frontend.onrender.com",
    "https://antigravtiy-frontend.onrender.com"]

/-- The header of an origin below `onrender.com`. -/
def Trusted (entry : String) : Prop :=
  ∃ origin : Origin, origin.render = entry ∧ origin.host.IsSubdomainOf "onrender.com"

/-- An origin that mentions `.onrender.com` in its scheme or in its host. -/
def Origin.Mentions (origin : Origin) : Prop :=
  contains ".onrender.com" origin.scheme = true ∨ contains ".onrender.com" origin.host.text = true

/-! ## The parts of a header -/

theorem Origin.toList_render (origin : Origin) : origin.render.toList =
    origin.scheme.toList ++ ':' :: '/' :: '/' ::
      (origin.host.text.toList ++ origin.portText.toList) := by
  simp [Origin.render, String.toList_append]

/-- A text without a delimiter occurs on one side of it. -/
theorem isInfix_append_cons_iff {pattern before after : List Char} {delimiter : Char}
    (hpattern : delimiter ∉ pattern) :
    pattern <:+: before ++ delimiter :: after ↔ pattern <:+: before ∨ pattern <:+: after := by
  rw [List.infix_append_iff, List.infix_cons_iff]
  constructor
  · intro hoccurs
    rcases hoccurs with hbefore | (⟨rest, heq⟩ | hafter) |
      ⟨first, second, rfl, hsuffix, ⟨rest, heq⟩⟩
    · exact .inl hbefore
    · cases pattern with
      | nil => exact .inl List.nil_infix
      | cons letter pattern =>
          rw [List.cons_append, List.cons.injEq] at heq
          exact absurd (heq.1 ▸ List.mem_cons_self) hpattern
    · exact .inr hafter
    · cases second with
      | nil =>
          rw [List.append_nil]
          exact .inl hsuffix.isInfix
      | cons letter second =>
          rw [List.cons_append, List.cons.injEq] at heq
          exact absurd (List.mem_append_right _ (heq.1 ▸ List.mem_cons_self)) hpattern
  · intro hoccurs
    rcases hoccurs with hbefore | hafter
    · exact .inl hbefore
    · exact .inr (.inl (.inr hafter))

/-- A port does not mention anything with a dot. -/
theorem Origin.isInfix_host_iff (origin : Origin) {pattern : List Char} (hdot : '.' ∈ pattern)
    (hcolon : ':' ∉ pattern) :
    pattern <:+: origin.host.text.toList ++ origin.portText.toList ↔
      pattern <:+: origin.host.text.toList := by
  unfold Origin.portText
  cases hport : origin.port with
  | none => simp
  | some digits =>
      have hdigits : ¬ pattern <:+: digits.toList := by
        intro hoccurs
        have hdigit := List.all_eq_true.mp (origin.port_digits digits hport) '.'
          (hoccurs.subset hdot)
        revert hdigit
        decide
      rw [String.toList_append]
      change _ <:+: _ ++ ':' :: digits.toList ↔ _
      rw [isInfix_append_cons_iff hcolon]
      exact or_iff_left hdigits

/-- What `in` finds in a header it finds in the scheme or in the host. -/
theorem Origin.contains_render_iff (origin : Origin) :
    contains ".onrender.com" origin.render = true ↔ origin.Mentions := by
  have hcolon : ':' ∉ ".onrender.com".toList := by decide
  have hslash : '/' ∉ ".onrender.com".toList := by decide
  have hempty : ¬ ".onrender.com".toList <:+: [] := by decide
  simp only [Origin.Mentions, contains, decide_eq_true_eq, origin.toList_render]
  rw [isInfix_append_cons_iff hcolon]
  apply or_congr_right
  rw [← List.nil_append ('/' :: '/' :: _), isInfix_append_cons_iff hslash, or_iff_right hempty,
    ← List.nil_append ('/' :: _), isInfix_append_cons_iff hslash, or_iff_right hempty]
  exact origin.isInfix_host_iff (by decide) hcolon

/-! ## Reading the host back -/

/-- The host that starts a text. -/
def readHost : List Char → List Char
  | '[' :: rest => '[' :: rest.takeWhile (· ≠ ']') ++ [']']
  | text => text.takeWhile (· ≠ ':')

/-- The host in a header. -/
def hostOf (header : List Char) : List Char :=
  readHost ((header.dropWhile (· ≠ ':')).drop 3)

theorem readHost_of_head {text : List Char} (hhead : text.head? ≠ some '[') :
    readHost text = text.takeWhile (· ≠ ':') := by
  unfold readHost
  split
  · exact absurd rfl hhead
  · rfl

/-- A port starts with a colon. -/
theorem Origin.portText_eq (origin : Origin) :
    origin.portText.toList = [] ∨ ∃ digits, origin.portText.toList = ':' :: digits := by
  unfold Origin.portText
  cases origin.port with
  | none => exact .inl (by simp)
  | some digits => exact .inr ⟨digits.toList, by simp [String.toList_append]⟩

theorem Origin.readHost_host (origin : Origin) :
    readHost (origin.host.text.toList ++ origin.portText.toList) = origin.host.text.toList := by
  have hport := origin.portText_eq
  generalize origin.portText.toList = port at hport ⊢
  cases origin.host with
  | name text plain =>
      have hletters : ∀ letter ∈ text.toList, decide (letter ≠ ':') = true :=
        ne_of_isPlain plain (by decide) List.not_mem_nil
      have hrest : port.takeWhile (· ≠ ':') = [] := by
        rcases hport with rfl | ⟨digits, rfl⟩
        · rfl
        · exact List.takeWhile_cons_of_neg (by decide)
      have hhead : (text.toList ++ port).head? ≠ some '[' := by
        cases htext : text.toList with
        | nil =>
            rcases hport with rfl | ⟨digits, rfl⟩
            · simp
            · simp
        | cons letter rest =>
            intro hhead
            obtain rfl : letter = '[' := Option.some.inj hhead
            have habsent : '[' ∉ text.toList :=
              not_mem_of_isPlain plain (by decide) List.not_mem_nil
            exact habsent (htext ▸ List.mem_cons_self)
      rw [Host.text, readHost_of_head hhead, List.takeWhile_append_of_pos hletters, hrest,
        List.append_nil]
  | address text plain =>
      have hletters : ∀ letter ∈ text.toList, decide (letter ≠ ']') = true :=
        ne_of_isPlain plain (by decide) (by decide)
      have htext : (Host.address text plain).text.toList = '[' :: (text.toList ++ [']']) := by
        simp [Host.text, String.toList_append]
      rw [htext, List.cons_append, List.append_assoc, readHost,
        List.takeWhile_append_of_pos hletters, List.singleton_append,
        List.takeWhile_cons_of_neg (by decide), List.append_nil, List.cons_append]

theorem Origin.hostOf_render (origin : Origin) :
    hostOf origin.render.toList = origin.host.text.toList := by
  have hscheme : ∀ letter ∈ origin.scheme.toList, decide (letter ≠ ':') = true :=
    ne_of_isPlain origin.scheme_plain (by decide) List.not_mem_nil
  rw [hostOf, origin.toList_render, List.dropWhile_append_of_pos hscheme,
    List.dropWhile_cons_of_neg (by decide)]
  exact origin.readHost_host

/-- Two origins with one header have one host. -/
theorem Origin.isSubdomainOf_of_render_eq {origin other : Origin}
    (heq : origin.render = other.render) {domain : String}
    (hsubdomain : origin.host.IsSubdomainOf domain) : other.host.IsSubdomainOf domain := by
  have hhost : origin.host.text.toList = other.host.text.toList := by
    rw [← origin.hostOf_render, heq, other.hostOf_render]
  unfold Host.IsSubdomainOf at hsubdomain ⊢
  rwa [← hhost]

theorem Origin.trusted_render_iff (origin : Origin) :
    Trusted origin.render ↔ origin.host.IsSubdomainOf "onrender.com" := by
  constructor
  · intro ⟨other, heq, hsubdomain⟩
    exact Origin.isSubdomainOf_of_render_eq heq hsubdomain
  · exact fun hsubdomain => ⟨origin, rfl, hsubdomain⟩

/-! ## Runs -/

/-- The origin a request offers: a preflight offers none. -/
def HttpRequest.offered (request : HttpRequest) : Option String :=
  if request.isPreflight then none else request.origin.map Origin.render

theorem handle_eq_extend (allowed : List String) (request : HttpRequest) :
    handle allowed request =
      Admission.extend (contains ".onrender.com") allowed request.offered := by
  unfold handle HttpRequest.offered
  cases request.isPreflight with
  | true => rfl
  | false =>
      cases request.origin with
      | none => rfl
      | some origin =>
          simp only [Bool.false_eq_true, if_false, Option.map_some, dynamicCors, Admission.extend]
          have hnonempty : contains ".onrender.com" origin.render = true → origin.render ≠ "" := by
            intro hcontains hempty
            rw [hempty] at hcontains
            revert hcontains
            decide
          by_cases hcontains : contains ".onrender.com" origin.render = true
          · simp [hcontains, hnonempty hcontains]
          · simp [hcontains]

/-- After a run every allowed origin is configured or below `onrender.com` if and only
if every new origin that gets through and mentions `.onrender.com` has such a host. -/
theorem allowed_origins_trusted_iff (initial : List String) (requests : List HttpRequest) :
    (∀ entry ∈ SerialRun.after handle initial requests, entry ∈ initial ∨ Trusted entry) ↔
      ∀ request ∈ requests, request.isPreflight = false → ∀ origin ∈ request.origin,
        origin.render ∉ initial → origin.Mentions → origin.host.IsSubdomainOf "onrender.com" := by
  rw [Admission.within_iff handle_eq_extend]
  apply forall₂_congr
  intro request hrequest
  unfold HttpRequest.offered
  cases request.isPreflight with
  | true => simp
  | false =>
      cases request.origin with
      | none => simp
      | some origin =>
          simp [origin.contains_render_iff, origin.trusted_render_iff]

/-- A host that goes on after `.onrender.com`. -/
def lookalike : Origin where
  scheme := "https"
  host := .name "a.onrender.com.evil.net" (by decide)
  port := none
  scheme_plain := by decide
  port_digits := by simp

/-- One request from there. -/
theorem not_allowed_origins_trusted_lookalike :
    ¬ ∀ entry ∈ SerialRun.after handle backendCorsOrigins [⟨some lookalike, false⟩],
      entry ∈ backendCorsOrigins ∨ Trusted entry := by
  intro htrusted
  have hadded : lookalike.render ∈
      SerialRun.after handle backendCorsOrigins [⟨some lookalike, false⟩] := by
    refine (Admission.mem_after_iff handle_eq_extend).mpr (.inr ⟨_, List.mem_cons_self, rfl, ?_⟩)
    exact lookalike.contains_render_iff.mpr (.inr (by decide +kernel))
  rcases htrusted _ hadded with hconfigured | hsubdomain
  · revert hconfigured
    decide +kernel
  · obtain ⟨label, -, heq⟩ := lookalike.trusted_render_iff.mp hsubdomain
    have hsuffix : '.' :: "onrender.com".toList <:+
        lookalike.host.text.toList.map Char.toLower := ⟨label, heq.symm⟩
    revert hsuffix
    decide +kernel

end Cors

end WorkflowPlatform
