import Drift.Lib.Transition
import Drift.Rdp.Connect
import Mathlib.Data.List.Induction
import Mathlib.Tactic.Common

/-!
# The redirections of an attempt

A redirection that succeeds advances the leg and may replace the host. Whatever comes of it, the secrets of
its PDU are cleared.
-/

namespace Drift.Rdp

def ServerRedirectionPdu.cleared (pdu : ServerRedirectionPdu) : ServerRedirectionPdu :=
  { pdu with password := none, username := none, redirectionGuid := none, domain := none }

/-- A redirection, what is left of its PDU, and its result. -/
structure Redirected where
  pdu : ServerRedirectionPdu
  left : ServerRedirectionPdu
  result : Except DisconnectReason NextLeg

namespace RedirectLoop

/-- `onRedirect` as a call that also changes the PDU. -/
def handle (r : RedirectLoop) (pdu : ServerRedirectionPdu) : RedirectLoop × List Redirected :=
  let followed := r.onRedirect pdu
  (followed.1, [⟨pdu, pdu.cleared, followed.2⟩])

end RedirectLoop

/-- The target address of a redirection, without its trailing NULs, if anything is left of it. -/
def ServerRedirectionPdu.address (pdu : ServerRedirectionPdu) : Option String :=
  (pdu.targetNetAddress.map (trimEnd fun c => c.toNat = 0)).filter (!·.isEmpty)

/-- The redirections that succeeded, in order. -/
def successes (calls : List Redirected) : List ServerRedirectionPdu :=
  (calls.filter fun call => call.result.isOk).map Redirected.pdu

/-- The last target address among some redirections, or else the host of the profile. -/
def lastAddress (host : String) (pdus : List ServerRedirectionPdu) : String :=
  (pdus.filterMap ServerRedirectionPdu.address).getLast?.getD host

theorem lastAddress_concat (host : String) (pdus : List ServerRedirectionPdu)
    (pdu : ServerRedirectionPdu) :
    lastAddress host (pdus ++ [pdu]) = pdu.address.getD (lastAddress host pdus) := by
  unfold lastAddress
  rw [List.filterMap_append]
  cases haddress : pdu.address with
  | none => simp [haddress]
  | some address => simp [haddress]

theorem successes_append (calls calls' : List Redirected) :
    successes (calls ++ calls') = successes calls ++ successes calls' := by
  simp [successes]

namespace RedirectLoop

variable {r : RedirectLoop}

theorem nextHost_eq (r : RedirectLoop) (pdu : ServerRedirectionPdu) :
    r.nextHost pdu = pdu.address.getD r.host := by
  unfold nextHost ServerRedirectionPdu.address
  cases pdu.targetNetAddress.map (trimEnd fun c => c.toNat = 0) with
  | none => rfl
  | some address =>
      by_cases hempty : address.isEmpty = true
      · simp [Option.filter_some, hempty]
      · simp [Option.filter_some, hempty]

/-- A redirection fails and changes nothing, or goes on to the next leg. -/
theorem onRedirect_cases (r : RedirectLoop) (pdu : ServerRedirectionPdu) :
    (∃ reason, r.onRedirect pdu = (r, .error reason)) ∨
      r.leg - 1 < maxRedirects ∧ ∃ next,
        r.onRedirect pdu =
          ({ r with host := pdu.address.getD r.host, leg := r.leg + 1 }, .ok next) ∧
        next.leg = r.leg + 1 ∧ next.host = pdu.address.getD r.host := by
  unfold onRedirect
  by_cases hmax : maxRedirects ≤ r.leg - 1
  · exact .inl ⟨_, if_pos hmax⟩
  · rw [if_neg hmax, nextHost_eq]
    cases OneTimeCredentials.fromRedirection pdu with
    | none => exact .inl ⟨_, rfl⟩
    | some credentials =>
        cases pdu.targetCertificate with
        | error e => exact .inl ⟨_, rfl⟩
        | ok targetCertificate => exact .inr ⟨Nat.lt_of_not_le hmax, _, rfl, rfl, rfl⟩

/-- The loop after some calls. -/
structure Followed (host : String) (r : RedirectLoop) (calls : List Redirected) : Prop where
  leg : r.leg = 1 + (successes calls).length
  max : r.leg ≤ 1 + maxRedirects
  host : r.host = lastAddress host (successes calls)

theorem Followed.handle {host : String} {calls : List Redirected} (h : Followed host r calls)
    (pdu : ServerRedirectionPdu) :
    Followed host (r.handle pdu).1 (calls ++ (r.handle pdu).2) := by
  unfold RedirectLoop.handle
  rcases onRedirect_cases r pdu with ⟨reason, heq⟩ | ⟨hlt, next, heq, -, -⟩
  · have hsame : successes (calls ++ [⟨pdu, pdu.cleared, .error reason⟩]) = successes calls := by
      rw [successes_append]
      exact List.append_nil _
    simp only [heq]
    exact ⟨by rw [hsame]; exact h.leg, h.max, by rw [hsame]; exact h.host⟩
  · have hmore : successes (calls ++ [⟨pdu, pdu.cleared, .ok next⟩]) = successes calls ++ [pdu] :=
      successes_append _ _
    simp only [heq]
    constructor
    case leg =>
      have hleg := h.leg
      show r.leg + 1 = 1 + _
      rw [hmore, List.length_append, List.length_singleton]
      omega
    case max =>
      show r.leg + 1 ≤ 1 + maxRedirects
      omega
    case host => rw [hmore, lastAddress_concat, ← h.host]

theorem followed_run (mode : ConnectMode) (host : String) (port : UInt16)
    (pdus : List ServerRedirectionPdu) :
    let run := Transition.run handle (new mode host port) pdus
    Followed host run.1 run.2 := by
  induction pdus using List.reverseRecOn with
  | nil => exact ⟨rfl, Nat.le_add_right _ _, rfl⟩
  | append_singleton pdus pdu ih =>
      simp only [Transition.run_concat]
      exact ih.handle pdu

/-- **Redirections are counted and followed.** After any calls, the leg counts the redirections that
succeeded and fits its byte, and one more call fails and changes nothing, or leads to the next leg at the
last target address; it clears the secrets of the PDU. -/
theorem redirects_followed (mode : ConnectMode) (host : String) (port : UInt16)
    (pdus : List ServerRedirectionPdu) :
    let run := Transition.run handle (new mode host port) pdus
    let followed := successes run.2
    run.1.leg = 1 + followed.length ∧ run.1.leg ≤ 1 + maxRedirects ∧ 1 ≤ run.1.leg ∧
      run.1.leg + 1 < 2 ^ 8 ∧ run.1.host = lastAddress host followed ∧
      ∀ pdu, ∃ result, (run.1.handle pdu).2 = [⟨pdu, pdu.cleared, result⟩] ∧
        (∀ reason, result = .error reason → (run.1.handle pdu).1 = run.1) ∧
        (∀ next, result = .ok next → next.leg = run.1.leg + 1 ∧ (run.1.handle pdu).1.leg = next.leg ∧
          next.host = lastAddress host (followed ++ [pdu]) ∧ (run.1.handle pdu).1.host = next.host) ∧
        pdu.cleared.password = none ∧ pdu.cleared.username = none ∧ pdu.cleared.domain = none ∧
        pdu.cleared.redirectionGuid = none := by
  intro run followed
  have h : Followed host run.1 run.2 := followed_run mode host port pdus
  have hmax := h.max
  have hbyte : run.1.leg + 1 < 2 ^ 8 := by
    unfold maxRedirects at hmax
    omega
  have hleg := h.leg
  refine ⟨h.leg, h.max, by omega, hbyte, h.host, fun pdu => ?_⟩
  refine ⟨(run.1.onRedirect pdu).2, rfl, ?_, ?_, rfl, rfl, rfl, rfl⟩
  · intro reason hreason
    rcases onRedirect_cases run.1 pdu with ⟨_, heq⟩ | ⟨-, next, heq, -, -⟩
    · have hstate : (run.1.onRedirect pdu).1 = run.1 := by rw [heq]
      exact hstate
    · rw [heq] at hreason
      exact nomatch hreason
  · intro next hnext
    rcases onRedirect_cases run.1 pdu with ⟨_, heq⟩ | ⟨-, next', heq, hleg, hhost⟩
    · rw [heq] at hnext
      exact nomatch hnext
    · have hsame : next' = next := by
        rw [heq] at hnext
        exact Except.ok.inj hnext
      have hstate : (run.1.handle pdu).1 =
          { run.1 with host := pdu.address.getD run.1.host, leg := run.1.leg + 1 } := by
        show (run.1.onRedirect pdu).1 = _
        rw [heq]
      rw [hsame] at hleg hhost
      rw [hstate, lastAddress_concat, ← h.host]
      exact ⟨hleg, hleg.symm, hhost, hhost.symm⟩

end RedirectLoop

end Drift.Rdp
