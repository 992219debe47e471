import FogHttp.Lib.Fallible
import FogHttp.Proxy.NoProxy

/-!
# What NO_PROXY rules mean

`Documented` is the meaning of an accepted NO_PROXY value: a token is `*`, or a host with
or without a port.  An address means that address, a domain means the domain and its
subdomains, and any other name means itself.

The code compares texts.  Two texts may spell the same IPv6 address, and such a rule
misses its target (`matches_iff_compares`, `hostMatches_iff`).  For IPv4 addresses and
names the comparison of texts is the meaning.
-/

namespace FogHttp.Proxy

open Lib

/-! ## Tokens -/

/-- The tokens of a NO_PROXY value. -/
def tokens (value : Option Text) : List Text := ((value.getD []).splitOn ',').map strip

/-- How a token spells a host, and the digits of a port. -/
inductive Spells : Text → Text → Option Text → Prop where
  | bracketed {host : Text} (hhost : ']' ∉ host) : Spells ('[' :: (host ++ [']'])) host none
  | bracketedPort {host port : Text} (hhost : ']' ∉ host) :
      Spells ('[' :: (host ++ ']' :: ':' :: port)) host (some port)
  | port {host port : Text} (hbracket : host.head? ≠ some '[') (hhost : ':' ∉ host)
      (hport : ':' ∉ port) : Spells (host ++ ':' :: port) host (some port)
  | host {host : Text} (hne : host ≠ []) (hbracket : host.head? ≠ some '[')
      (hcolons : host.count ':' ≠ 1) : Spells host host none

/-- The port of a token is absent, or it is this one. -/
def PortMatches (tables : StrTables) (digits : Option Text) (port : Nat) : Prop :=
  digits = none ∨ ∃ text, digits = some text ∧ intValue tables text = .ok port

/-- The name or the address in a token: its host without the marker, folded. -/
def documentedName (tables : StrTables) (host : Text) : Text :=
  withoutMarker (foldedRuleHost tables host)

/-- Whether a token stands for a domain. -/
def IsDomain (tables : StrTables) (host : Text) : Prop :=
  startsWith ['.'] host = true ∨ startsWith ['*', '.'] host = true ∨
    '.' ∈ documentedName tables host

/-- What the host of a token means for the host of a target. -/
def HostMatches (tables : StrTables) (host targetHost : Text) : Prop :=
  match ipAddress (documentedName tables host) with
  | some address => ipAddress (normalizeTargetHost tables targetHost) = some address
  | none =>
      (IsDomain tables host → ipAddress (normalizeTargetHost tables targetHost) = none ∧
        (normalizeTargetHost tables targetHost = documentedName tables host ∨
          ∃ labels, normalizeTargetHost tables targetHost =
            labels ++ '.' :: documentedName tables host)) ∧
      (¬ IsDomain tables host →
        normalizeTargetHost tables targetHost = documentedName tables host)

/-- A NO_PROXY value means that a target goes past the proxy. -/
def Documented (tables : StrTables) (value : Option Text) (target : ProxyTarget) : Prop :=
  ∃ token ∈ tokens value, token = ['*'] ∨ ∃ host digits, Spells token host digits ∧
    PortMatches tables digits target.port ∧ HostMatches tables host target.host

/-! ## Splitting a token -/

variable {tables : StrTables}

/-- The port of a rule. -/
def readPort (tables : StrTables) : Option Text → Except ValueError (Option Nat)
  | none => .ok none
  | some text => (parseNoProxyPort tables text).map some

/-- The split of a bracketed token. -/
theorem splitNoProxyHostPort_bracketed {host : Text} (h : ']' ∉ host) (suffix : Text) :
    splitNoProxyHostPort tables ('[' :: (host ++ ']' :: suffix)) = (do
      validateBracketedIpv6Host host
      match suffix with
      | [] => .ok (host, none)
      | c :: portText =>
          if c ≠ ':' then raise "NO_PROXY IPv6 rule suffix is invalid"
          else do
            let port ← parseNoProxyPort tables portText
            .ok (host, some port)) := by
  show splitBracketedHostPort tables (host ++ ']' :: suffix) = _
  have hcut := splitOnce_append_cons h suffix
  unfold splitBracketedHostPort
  split
  · rename_i hnone
    cases hnone.symm.trans hcut
  · rename_i hsome
    obtain ⟨rfl, rfl⟩ := Prod.mk.inj (Option.some.inj (hsome.symm.trans hcut))
    rfl

/-- The split of any other token. -/
theorem splitNoProxyHostPort_of_ne {value : Text} (h : value.head? ≠ some '[') :
    splitNoProxyHostPort tables value =
      if value.count ':' = 1 then
        match rsplitOnce ':' value with
        | some (host, portText) => do
            let port ← parseNoProxyPort tables portText
            .ok (host, some port)
        | none => .ok (value, none)
      else .ok (value, none) := by
  unfold splitNoProxyHostPort
  split
  · exact absurd rfl h
  · rfl

theorem readPort_of_parse {portText host other : Text} {port : Option Nat}
    (h : (do let port ← parseNoProxyPort tables portText; .ok (host, some port)) =
      (.ok (other, port) : Except ValueError (Text × Option Nat))) :
    other = host ∧ readPort tables (some portText) = .ok port := by
  rw [bind_eq_ok] at h
  obtain ⟨value, hvalue, h⟩ := h
  cases h
  exact ⟨rfl, map_eq_ok.mpr ⟨value, hvalue, rfl⟩⟩

/-- A token is split into what it spells. -/
theorem split_of_spells {value host : Text} {digits : Option Text} (h : Spells value host digits)
    {other : Text} {port : Option Nat}
    (hsplit : splitNoProxyHostPort tables value = .ok (other, port)) :
    other = host ∧ readPort tables digits = .ok port := by
  cases h with
  | bracketed hhost =>
      rw [splitNoProxyHostPort_bracketed hhost, bind_eq_ok] at hsplit
      obtain ⟨-, -, hsplit⟩ := hsplit
      cases hsplit
      exact ⟨rfl, rfl⟩
  | bracketedPort hhost =>
      rw [splitNoProxyHostPort_bracketed hhost, bind_eq_ok] at hsplit
      obtain ⟨-, -, hsplit⟩ := hsplit
      exact readPort_of_parse hsplit
  | @port _ port hbracket hhost hport =>
      have hhead : (host ++ ':' :: port).head? ≠ some '[' := by
        cases host with
        | nil => simp
        | cons c rest => exact hbracket
      have hcount : (host ++ ':' :: port).count ':' = 1 := by
        rw [List.count_append, List.count_cons_self, List.count_eq_zero_of_not_mem hhost,
          List.count_eq_zero_of_not_mem hport]
      rw [splitNoProxyHostPort_of_ne hhead, if_pos hcount,
        rsplitOnce_append_cons host hport] at hsplit
      exact readPort_of_parse hsplit
  | host hne hbracket hcolons =>
      rw [splitNoProxyHostPort_of_ne hbracket, if_neg hcolons] at hsplit
      cases hsplit
      exact ⟨rfl, rfl⟩

theorem spells_of_split_bracketed {rest host : Text} {port : Option Nat}
    (h : splitNoProxyHostPort tables ('[' :: rest) = .ok (host, port)) :
    ∃ host digits, Spells ('[' :: rest) host digits := by
  cases hcut : splitOnce ']' rest with
  | none =>
      change splitBracketedHostPort tables rest = _ at h
      simp [splitBracketedHostPort, hcut, raise] at h
  | some pieces =>
      obtain ⟨address, suffix⟩ := pieces
      obtain ⟨rfl, hmem⟩ := splitOnce_eq_some hcut
      cases suffix with
      | nil => exact ⟨address, none, .bracketed hmem⟩
      | cons c portText =>
          rw [splitNoProxyHostPort_bracketed hmem, bind_eq_ok] at h
          obtain ⟨-, -, h⟩ := h
          by_cases hcolon : c = ':'
          · subst hcolon
            exact ⟨address, some portText, .bracketedPort hmem⟩
          · simp [hcolon, raise] at h

/-- Any token without a bracket in front spells a host. -/
theorem spells_of_head_ne {value : Text} (hne : value ≠ []) (hbracket : value.head? ≠ some '[') :
    ∃ host digits, Spells value host digits := by
  by_cases hcount : value.count ':' = 1
  · cases hcut : rsplitOnce ':' value with
    | none =>
        rw [List.count_eq_zero_of_not_mem (rsplitOnce_eq_none hcut)] at hcount
        omega
    | some pieces =>
        obtain ⟨front, portText⟩ := pieces
        obtain ⟨rfl, hport⟩ := rsplitOnce_eq_some hcut
        have hfront : ':' ∉ front := by
          rw [List.count_append, List.count_cons_self] at hcount
          exact List.count_eq_zero.mp (by omega)
        have hhead : front.head? ≠ some '[' := by
          intro hhead
          obtain ⟨rest, rfl⟩ := List.head?_eq_some_iff.mp hhead
          exact hbracket rfl
        exact ⟨front, some portText, .port hhead hfront hport⟩
  · exact ⟨value, none, .host hne hbracket hcount⟩

/-- A token that is split spells a host. -/
theorem spells_of_split {value host : Text} {port : Option Nat} (hne : value ≠ [])
    (h : splitNoProxyHostPort tables value = .ok (host, port)) :
    ∃ host digits, Spells value host digits := by
  by_cases hbracket : value.head? = some '['
  · obtain ⟨rest, rfl⟩ := List.head?_eq_some_iff.mp hbracket
    exact spells_of_split_bracketed h
  · exact spells_of_head_ne hne hbracket

/-! ## Hosts -/

theorem removePrefix_of_not {start text : Text} (h : startsWith start text = false) :
    removePrefix start text = text :=
  if_neg (by rw [h]; exact Bool.false_ne_true)

/-- A text without empty labels does not start with a dot. -/
theorem startsWith_dot_of_labels {text : Text} (h : [] ∉ text.splitOn '.') :
    startsWith ['.'] text = false := by
  cases text with
  | nil => rfl
  | cons c rest =>
      by_cases hc : c = '.'
      · subst hc
        rw [List.splitOn_cons_eq_if_modifyHead, if_pos (beq_self_eq_true '.')] at h
        exact absurd List.mem_cons_self h
      · simp [startsWith, List.isPrefixOf, Ne.symm hc]

/-- A host whose labels are not empty loses one marker only. -/
theorem normalizeRuleHost_eq {host : Text} (h : isMalformedRuleHost tables host = false) :
    normalizeRuleHost tables host = documentedName tables host := by
  have hlabels : [] ∉ (documentedName tables host).splitOn '.' := by
    unfold isMalformedRuleHost at h
    simp only [Bool.or_eq_false_iff] at h
    exact List.contains_iff_mem.not.mp (by rw [Bool.not_eq_true]; exact h.2)
  unfold normalizeRuleHost
  unfold documentedName withoutMarker at hlabels ⊢
  cases hstar : startsWith ['*', '.'] (foldedRuleHost tables host) with
  | true =>
      rw [if_pos hstar] at hlabels
      rw [if_pos rfl]
      exact removePrefix_of_not (startsWith_dot_of_labels hlabels)
  | false =>
      rw [removePrefix_of_not hstar, if_neg Bool.false_ne_true]
      cases hdot : startsWith ['.'] (foldedRuleHost tables host) with
      | true => rw [if_pos rfl]
      | false => rw [if_neg Bool.false_ne_true, removePrefix_of_not hdot]

/-- What the comparison of texts accepts. -/
def Compares (tables : StrTables) (host targetHost : Text) : Prop :=
  normalizeTargetHost tables targetHost = documentedName tables host ∨
    (IsDomain tables host ∧ ipAddress (documentedName tables host) = none ∧
      ipAddress (normalizeTargetHost tables targetHost) = none ∧
      ∃ labels, normalizeTargetHost tables targetHost =
        labels ++ '.' :: documentedName tables host)

/-- A token and a target that name one IPv6 address. -/
def SameIpv6 (tables : StrTables) (host targetHost : Text) : Prop :=
  ∃ ip scopeId, ipAddress (documentedName tables host) = some (.v6 ip scopeId) ∧
    ipAddress (normalizeTargetHost tables targetHost) = some (.v6 ip scopeId)

theorem ipv4Address_of_ipAddress {text : Text} {ip : Nat} (h : ipAddress text = some (.v4 ip)) :
    ipv4Address text = some ip := by
  unfold ipAddress at h
  split at h
  · rename_i hipv4
    cases h
    exact hipv4
  · simp at h

/-- The comparison of texts misses what a token means when an IPv6 address has two spellings,
and nothing else. -/
theorem hostMatches_iff (host targetHost : Text) :
    HostMatches tables host targetHost ↔
      Compares tables host targetHost ∨ SameIpv6 tables host targetHost := by
  unfold HostMatches Compares SameIpv6
  cases hname : ipAddress (documentedName tables host) with
  | some address =>
      constructor
      · intro htarget
        cases address with
        | v4 ip =>
            exact .inl (.inl (ipv4Address_injective (ipv4Address_of_ipAddress htarget)
              (ipv4Address_of_ipAddress hname)))
        | v6 ip scopeId => exact .inr ⟨ip, scopeId, rfl, htarget⟩
      · rintro ((hsame | ⟨-, hnone, -⟩) | ⟨ip, scopeId, hip, htarget⟩)
        · rw [hsame]
          exact hname
        · cases hnone
        · rw [htarget, hip]
  | none =>
      constructor
      · rintro ⟨hdomain, hplain⟩
        by_cases h : IsDomain tables host
        · obtain ⟨htarget, hsame | hlabels⟩ := hdomain h
          · exact .inl (.inl hsame)
          · exact .inl (.inr ⟨h, rfl, htarget, hlabels⟩)
        · exact .inl (.inl (hplain h))
      · rintro ((hsame | ⟨hdomain, -, htarget, hlabels⟩) | ⟨ip, scopeId, hip, -⟩)
        · exact ⟨fun _ => ⟨hsame ▸ hname, .inl hsame⟩, fun _ => hsame⟩
        · exact ⟨fun _ => ⟨htarget, .inr hlabels⟩, fun hplain => absurd hdomain hplain⟩
        · cases hip

/-! ## Rules -/

/-- The rule of a token with a host. -/
def hostRule (tables : StrTables) (value host : Text) (port : Option Nat) : NoProxyRule where
  value
  host := documentedName tables host
  port
  wildcard := false
  suffixMatch := isSuffixRule host (documentedName tables host)
  ipLiteral := isIpLiteral (documentedName tables host)

theorem isSuffixRule_iff (host : Text) :
    isSuffixRule host (documentedName tables host) = true ↔ IsDomain tables host := by
  simp only [isSuffixRule, IsDomain, Bool.or_eq_true, List.contains_iff_mem, or_assoc]

theorem isIpLiteral_eq_false_iff (text : Text) :
    isIpLiteral text = false ↔ ipAddress text = none := by
  unfold isIpLiteral
  rw [Option.isSome_eq_false_iff, Option.isNone_iff_eq_none]

theorem hostRule_matchesHost (value host targetHost : Text) (port : Option Nat) :
    (hostRule tables value host port).matchesHost (normalizeTargetHost tables targetHost) = true ↔
      Compares tables host targetHost := by
  unfold Compares NoProxyRule.matchesHost hostRule
  dsimp only
  split
  · rename_i hexact
    rw [beq_iff_eq]
    refine ⟨.inl, fun hcompares => ?_⟩
    rcases hcompares with hsame | ⟨hsuffix, hname, htarget, -⟩
    · exact hsame
    · rw [(isIpLiteral_eq_false_iff _).mpr hname, (isIpLiteral_eq_false_iff _).mpr htarget,
        (isSuffixRule_iff host).mpr hsuffix] at hexact
      cases hexact
  · rename_i hexact
    simp only [Bool.or_eq_true, Bool.not_eq_true', not_or, Bool.not_eq_true,
      Bool.not_eq_false] at hexact
    obtain ⟨⟨hname, htarget⟩, hsuffix⟩ := hexact
    rw [Bool.or_eq_true, beq_iff_eq, List.isSuffixOf_iff_suffix]
    refine or_congr_right ⟨fun ⟨labels, hlabels⟩ => ?_, fun ⟨_, _, _, labels, hlabels⟩ => ?_⟩
    · exact ⟨(isSuffixRule_iff host).mp hsuffix, (isIpLiteral_eq_false_iff _).mp hname,
        (isIpLiteral_eq_false_iff _).mp htarget, labels, hlabels.symm⟩
    · exact ⟨labels, hlabels.symm⟩

theorem portMatches_iff {digits : Option Text} {port : Option Nat}
    (h : readPort tables digits = .ok port) (targetPort : Nat) :
    PortMatches tables digits targetPort ↔ port = none ∨ port = some targetPort := by
  cases digits with
  | none =>
      obtain rfl := Except.ok.inj h
      exact iff_of_true (.inl rfl) (.inl rfl)
  | some text =>
      obtain ⟨value, hvalue, rfl⟩ := map_eq_ok.mp h
      have hint : intValue tables text = .ok value := by
        unfold parseNoProxyPort at hvalue
        split at hvalue
        · cases hvalue
        · rw [bind_eq_ok] at hvalue
          obtain ⟨port, hport, hvalue⟩ := hvalue
          split at hvalue
          · cases hvalue
          · cases hvalue
            exact hport
      simp [PortMatches, hint]

/-- A rule is that of a blank token, of the wildcard or of a host. -/
theorem parse_spec {value : Text} {rule : Option NoProxyRule}
    (h : NoProxyRule.parse tables value = .ok rule) :
    (strip value = [] ∧ rule = none) ∨
      (strip value = ['*'] ∧ ∃ wildcard, rule = some wildcard ∧ wildcard.wildcard = true) ∨
      (strip value ≠ [] ∧ strip value ≠ ['*'] ∧ ∃ host port,
        splitNoProxyHostPort tables (strip value) = .ok (host, port) ∧
          rule = some (hostRule tables (strip value) host port)) := by
  unfold NoProxyRule.parse at h
  dsimp only at h
  split at h
  · rename_i hblank
    exact .inl ⟨hblank, (Except.ok.inj h).symm⟩
  · rename_i hblank
    split at h
    · rename_i hstar
      exact .inr (.inl ⟨hstar, _, (Except.ok.inj h).symm, rfl⟩)
    · rename_i hstar
      rw [bind_eq_ok] at h
      obtain ⟨⟨host, port⟩, hsplit, h⟩ := h
      dsimp only at h
      split at h
      · cases h
      · split at h
        · cases h
        · rename_i hmalformed
          rw [Bool.not_eq_true] at hmalformed
          refine .inr (.inr ⟨hblank, hstar, host, port, hsplit, ?_⟩)
          rw [← Except.ok.inj h, normalizeRuleHost_eq hmalformed]
          rfl

/-- What a token makes the code accept. -/
def TokenCompares (tables : StrTables) (target : ProxyTarget) (token : Text) : Prop :=
  token = ['*'] ∨ ∃ host digits, Spells token host digits ∧
    PortMatches tables digits target.port ∧ Compares tables host target.host

theorem not_tokenCompares_nil (target : ProxyTarget) : ¬ TokenCompares tables target [] := by
  rintro (hstar | ⟨host, digits, hspells, -⟩)
  · cases hstar
  · generalize htoken : ([] : Text) = token at hspells
    cases hspells with
    | bracketed => cases htoken
    | bracketedPort => cases htoken
    | port => simp at htoken
    | host hne => exact hne htoken.symm

/-- The rule of a token matches what the token makes the code accept. -/
theorem token_matches_iff {value : Text} {rule : Option NoProxyRule}
    (h : NoProxyRule.parse tables value = .ok rule) (target : ProxyTarget) :
    (∃ parsed, rule = some parsed ∧ parsed.matchesTarget tables target = true) ↔
      TokenCompares tables target (strip value) := by
  rcases parse_spec h with ⟨hblank, rfl⟩ | ⟨hstar, wildcard, rfl, hwildcard⟩ |
    ⟨hblank, hstar, host, port, hsplit, rfl⟩
  · rw [hblank]
    exact iff_of_false (fun ⟨_, hnone, _⟩ => nomatch hnone) (not_tokenCompares_nil target)
  · exact iff_of_true ⟨wildcard, rfl, if_pos hwildcard⟩ (.inl hstar)
  · have hmatches : ∀ digits, readPort tables digits = .ok port →
        ((hostRule tables (strip value) host port).matchesTarget tables target = true ↔
          PortMatches tables digits target.port ∧ Compares tables host target.host) := by
      intro digits hdigits
      rw [portMatches_iff hdigits, ← hostRule_matchesHost (strip value) host target.host port]
      unfold NoProxyRule.matchesTarget
      cases port <;> simp [hostRule]
    constructor
    · rintro ⟨parsed, hparsed, htarget⟩
      obtain rfl := Option.some.inj hparsed
      obtain ⟨spelled, digits, hspells⟩ := spells_of_split hblank hsplit
      obtain ⟨rfl, hdigits⟩ := split_of_spells hspells hsplit
      exact .inr ⟨_, digits, hspells, (hmatches digits hdigits).mp htarget⟩
    · rintro (hwildcard | ⟨spelled, digits, hspells, hcompares⟩)
      · exact absurd hwildcard hstar
      · obtain ⟨rfl, hdigits⟩ := split_of_spells hspells hsplit
        exact ⟨_, rfl, (hmatches digits hdigits).mpr hcompares⟩

/-! ## The matcher -/

variable {value : Option Text} {matcher : NoProxyMatcher}

theorem matchesTarget_iff (target : ProxyTarget) :
    matcher.matchesTarget tables target = true ↔
      ∃ rule ∈ matcher.rules, rule.matchesTarget tables target = true := by
  unfold NoProxyMatcher.matchesTarget NoProxyMatcher.findMatch
  exact List.find?_isSome

/-- The matcher without rules is that of a value without tokens. -/
theorem empty_matches_iff (target : ProxyTarget) :
    NoProxyMatcher.empty.matchesTarget tables target = true ↔
      ∃ token ∈ tokens none, TokenCompares tables target token := by
  rw [matchesTarget_iff]
  refine iff_of_false ?_ ?_
  · rintro ⟨rule, hmem, -⟩
    cases hmem
  · rintro ⟨token, hmem, hcompares⟩
    rw [List.mem_singleton.mp hmem] at hcompares
    exact not_tokenCompares_nil target hcompares

/-- An accepted value is matched by the comparisons of its tokens. -/
theorem matches_iff_compares (h : NoProxyMatcher.parse tables value = .ok matcher)
    (target : ProxyTarget) : matcher.matchesTarget tables target = true ↔
      ∃ token ∈ tokens value, TokenCompares tables target token := by
  unfold NoProxyMatcher.parse at h
  split at h
  · obtain rfl := Except.ok.inj h
    exact empty_matches_iff target
  · rename_i value
    split at h
    · rename_i hvalue
      subst hvalue
      obtain rfl := Except.ok.inj h
      exact empty_matches_iff target
    · rw [bind_eq_ok] at h
      obtain ⟨rules, hrules, h⟩ := h
      obtain rfl := Except.ok.inj h
      rw [matchesTarget_iff]
      constructor
      · rintro ⟨rule, hmem, hmatches⟩
        obtain ⟨parsed, hparsed, hrule⟩ := List.mem_filterMap.mp hmem
        obtain ⟨piece, hpiece, hparse⟩ := exists_of_mem_mapM hrules hparsed
        exact ⟨strip piece, List.mem_map_of_mem hpiece,
          (token_matches_iff hparse target).mp ⟨rule, hrule, hmatches⟩⟩
      · rintro ⟨token, hmem, hcompares⟩
        obtain ⟨piece, hpiece, rfl⟩ := List.mem_map.mp hmem
        obtain ⟨parsed, hparsed, hparse⟩ := exists_result_of_mem hrules hpiece
        obtain ⟨rule, hrule, hmatches⟩ := (token_matches_iff hparse target).mpr hcompares
        exact ⟨rule, List.mem_filterMap.mpr ⟨parsed, hparsed, hrule⟩, hmatches⟩

/-- A token names the IPv6 address of a target, with a port that fits. -/
def NamesIpv6 (tables : StrTables) (target : ProxyTarget) (token : Text) : Prop :=
  ∃ host digits, Spells token host digits ∧ PortMatches tables digits target.port ∧
    SameIpv6 tables host target.host

/-- A token lets a target past the proxy by its spelling: it is `*`, or it has a port that fits
and the very text of the target's host. -/
def SpelledAlike (tables : StrTables) (target : ProxyTarget) (token : Text) : Prop :=
  token = ['*'] ∨ ∃ host digits, Spells token host digits ∧
    PortMatches tables digits target.port ∧
      documentedName tables host = normalizeTargetHost tables target.host

/-- The documented meaning is what the code compares, and the spellings that it misses. -/
theorem documented_iff (value : Option Text) (target : ProxyTarget) :
    Documented tables value target ↔
      (∃ token ∈ tokens value, TokenCompares tables target token) ∨
        ∃ token ∈ tokens value, NamesIpv6 tables target token := by
  unfold Documented TokenCompares NamesIpv6
  constructor
  · rintro ⟨token, hmem, hstar | ⟨host, digits, hspells, hport, hhost⟩⟩
    · exact .inl ⟨token, hmem, .inl hstar⟩
    · rcases (hostMatches_iff host target.host).mp hhost with hcompares | hsame
      · exact .inl ⟨token, hmem, .inr ⟨host, digits, hspells, hport, hcompares⟩⟩
      · exact .inr ⟨token, hmem, host, digits, hspells, hport, hsame⟩
  · rintro (⟨token, hmem, hstar | ⟨host, digits, hspells, hport, hcompares⟩⟩ |
      ⟨token, hmem, host, digits, hspells, hport, hsame⟩)
    · exact ⟨token, hmem, .inl hstar⟩
    · exact ⟨token, hmem, .inr ⟨host, digits, hspells, hport,
        (hostMatches_iff host target.host).mpr (.inl hcompares)⟩⟩
    · exact ⟨token, hmem, .inr ⟨host, digits, hspells, hport,
        (hostMatches_iff host target.host).mpr (.inr hsame)⟩⟩

/-- For the target of an IPv6 address the code accepts equal texts only. -/
theorem tokenCompares_iff_of_namesIpv6 {target : ProxyTarget} {token : Text}
    (h : NamesIpv6 tables target token) (other : Text) :
    TokenCompares tables target other ↔ SpelledAlike tables target other := by
  obtain ⟨_, _, -, -, ip, scopeId, -, htarget⟩ := h
  have hcompares : ∀ host, Compares tables host target.host ↔
      documentedName tables host = normalizeTargetHost tables target.host := by
    intro host
    refine ⟨fun hcompares => ?_, fun hsame => .inl hsame.symm⟩
    rcases hcompares with hsame | ⟨-, -, hnone, -⟩
    · exact hsame.symm
    · rw [htarget] at hnone
      cases hnone
  unfold TokenCompares SpelledAlike
  simp only [hcompares]

/-- An accepted value lets the documented targets past the proxy, and no others, unless a token
names the IPv6 address of the target in another spelling and no token spells it alike.  No target
goes past the proxy without a token that means it. -/
theorem no_proxy_matches (h : NoProxyMatcher.parse tables value = .ok matcher)
    (target : ProxyTarget) :
    ((matcher.matchesTarget tables target = true ↔ Documented tables value target) ↔
      ((∃ token ∈ tokens value, NamesIpv6 tables target token) →
        ∃ token ∈ tokens value, SpelledAlike tables target token)) ∧
    (matcher.matchesTarget tables target = true → Documented tables value target) := by
  rw [matches_iff_compares h target, documented_iff]
  refine ⟨⟨fun hmeans hnames => ?_, fun halike => ⟨.inl, fun hdocumented => ?_⟩⟩, .inl⟩
  · obtain ⟨other, hother, hcompares⟩ := hmeans.mpr (.inr hnames)
    obtain ⟨token, -, hipv6⟩ := hnames
    exact ⟨other, hother, (tokenCompares_iff_of_namesIpv6 hipv6 other).mp hcompares⟩
  · rcases hdocumented with hcompares | hnames
    · exact hcompares
    · obtain ⟨other, hother, hspelled⟩ := halike hnames
      obtain ⟨token, -, hipv6⟩ := hnames
      exact ⟨other, hother, (tokenCompares_iff_of_namesIpv6 hipv6 other).mpr hspelled⟩

namespace NoProxyExample

/-- The Unicode tables on ASCII. -/
def ascii : StrTables where
  lower := toAsciiLowercase
  isDigit := Char.isDigit
  decimal := toDigit 10

/-- A service on the loopback address. -/
def loopback : ProxyTarget := ⟨"http".toList, "::1".toList, 8080⟩

/-- The rule of the address in full. -/
def respelled : NoProxyRule where
  value := "[0:0:0:0:0:0:0:1]:8080".toList
  host := "0:0:0:0:0:0:0:1".toList
  port := some 8080
  wildcard := false
  suffixMatch := false
  ipLiteral := true

end NoProxyExample

open NoProxyExample

/-- A rule for the loopback address, written in full, is accepted and misses it. -/
theorem no_proxy_misses_respelled :
    NoProxyMatcher.parse ascii (some "[0:0:0:0:0:0:0:1]:8080".toList) = .ok ⟨[respelled]⟩ ∧
      NoProxyMatcher.matchesTarget ascii ⟨[respelled]⟩ loopback = false ∧
      Documented ascii (some "[0:0:0:0:0:0:0:1]:8080".toList) loopback := by
  have hspells : Spells "[0:0:0:0:0:0:0:1]:8080".toList "0:0:0:0:0:0:0:1".toList
      (some "8080".toList) := @Spells.bracketedPort "0:0:0:0:0:0:0:1".toList _ (by decide)
  have hport : PortMatches ascii (some "8080".toList) loopback.port :=
    .inr ⟨_, rfl, by decide +kernel⟩
  have hhost : HostMatches ascii "0:0:0:0:0:0:0:1".toList loopback.host :=
    (hostMatches_iff _ _).mpr (.inr ⟨1, none, by decide +kernel, by decide +kernel⟩)
  exact ⟨by decide +kernel, by decide +kernel, _, by decide +kernel,
    .inr ⟨_, _, hspells, hport, hhost⟩⟩

/-- A rule for the same address, written as the target writes it, matches. -/
theorem no_proxy_matches_example :
    NoProxyMatcher.matchesTarget ascii ⟨[{ respelled with
      value := "[::1]:8080".toList, host := "::1".toList }]⟩ loopback = true ↔
        Documented ascii (some "[::1]:8080".toList) loopback := by
  have hparse : NoProxyMatcher.parse ascii (some "[::1]:8080".toList) = .ok ⟨[{ respelled with
      value := "[::1]:8080".toList, host := "::1".toList }]⟩ := by decide +kernel
  have hspells : Spells "[::1]:8080".toList "::1".toList (some "8080".toList) :=
    @Spells.bracketedPort "::1".toList _ (by decide)
  have hport : PortMatches ascii (some "8080".toList) loopback.port :=
    .inr ⟨_, rfl, by decide +kernel⟩
  exact (no_proxy_matches hparse loopback).1.mpr fun _ => ⟨"[::1]:8080".toList,
    by decide +kernel, .inr ⟨_, _, hspells, hport, by decide +kernel⟩⟩

end FogHttp.Proxy
