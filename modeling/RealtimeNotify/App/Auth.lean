import RealtimeNotify.App.Operations

/-! # `POST /auth/ws-ticket` -/

namespace RealtimeNotify.App

open RealtimeNotify.Lib RealtimeNotify.Python

/-- `decode_user_id`. `claims` is what `jwt.decode` returned, reduced to its
`sub`; `none` is an `InvalidTokenError`. -/
def decodeUserId (claims : Option (Option String)) : Except HTTPException String :=
  match claims with
  | none => .error ⟨401, "Invalid or expired token"⟩
  | some none => .error ⟨401, "Token missing subject claim"⟩
  | some (some userId) =>
      if userId = "" then .error ⟨401, "Token missing subject claim"⟩
      else if (UUID.ofString userId).isSome then .ok userId
      else .error ⟨401, "Token subject claim must be a UUID"⟩

/-- An accepted subject is handed on as it was written. -/
theorem decodeUserId_ok {claims : Option (Option String)} {u : String}
    (h : decodeUserId claims = .ok u) :
    claims = some (some u) ∧ ∃ id, UUID.ofString u = some id := by
  match claims with
  | none => simp [decodeUserId] at h
  | some none => simp [decodeUserId] at h
  | some (some s) =>
    simp only [decodeUserId] at h
    split at h
    · simp at h
    · split at h
      · rename_i hs
        simp only [Except.ok.injEq] at h
        exact ⟨by rw [h], Option.isSome_iff_exists.mp (h ▸ hs)⟩
      · simp at h

/-- The points of `issue_ws_ticket`. -/
inductive IssuePc where
  | issue (userId ticket : String)
  | returned (ticket : String)
  | rejected (error : HTTPException)
  | raised
  | killed

/-- The handler up to its first suspension; `token` is `secrets.token_urlsafe(32)`. -/
def IssuePc.start (claims : Option (Option String)) (token : String) : IssuePc :=
  match decodeUserId claims with
  | .ok userId => .issue userId token
  | .error e => .rejected e

/-- What becomes of a request whose process dies. -/
def IssuePc.kill : IssuePc → IssuePc
  | .issue _ _ => .killed
  | pc => pc

def IssuePc.next (env : Env) : IssuePc → Step IssuePc
  | .issue userId ticket =>
      .call (.redis (WSTicketAuth.issueTicket ticket userId env.wsTicketTtlSeconds))
        (fun _ => .returned ticket) .raised
  | .returned _ | .rejected _ | .raised | .killed => .done

end RealtimeNotify.App
