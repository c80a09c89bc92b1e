import LeftHookRoll.ResponseFrame

/-!
# The headers of an answer

What `addHeader` does to the header map and to the cookies, and the response that `finalizeSuccess`
leaves (`finished`).
-/

namespace LeftHookRoll

open Eff

namespace Response

variable {r : Response}

theorem addHeader_headers {key : Bytes} (h : isSetCookieHeader key = false) (value : Bytes) (r : Response) :
    (addHeader key value r).headers = r.headers.insert key value := by
  unfold addHeader
  simp only [h, Bool.false_eq_true, if_false]
  split <;> rfl

theorem addHeader_setCookies {key : Bytes} (h : isSetCookieHeader key = false) (value : Bytes) (r : Response) :
    (addHeader key value r).setCookies = r.setCookies := by
  unfold addHeader
  simp only [h, Bool.false_eq_true, if_false]
  split <;> rfl

theorem addHeader_cookie {key : Bytes} (h : isSetCookieHeader key = true) (value : Bytes) (r : Response) :
    (addHeader key value r).headers = r.headers ∧ (addHeader key value r).setCookies = r.setCookies ++ [value] := by
  unfold addHeader
  simp only [h, if_true]
  split <;> exact ⟨rfl, rfl⟩

/-- The headers that every answer ends with. -/
def dated (date : Bytes) (r : Response) : Response :=
  addHeader (ascii "Connection") (ascii "close") (addHeader (ascii "Date") date r)

/-- The response that `finalizeSuccess` leaves. -/
def finished (date contentType : Bytes) (r : Response) : Response :=
  startHead (dated date (addHeader (ascii "Content-Length") (decimal r.responseDataStore.getSize)
    (addHeader (ascii "Content-Type") contentType r)))

theorem finalizeSuccess_run (sys : Sys) (contentType : Bytes) (r : Response) (w : World) :
    finalizeSuccess sys contentType (r, w) = (.ok (), finished (sys.httpDate w.now) contentType r, w) := rfl

theorem sameButHeaders_dated (date : Bytes) (r : Response) : SameButHeaders r (dated date r) :=
  (sameButHeaders_addHeader _ _ _).trans (sameButHeaders_addHeader _ _ _)

theorem dated_headers (date : Bytes) (r : Response) : (dated date r).headers =
    (r.headers.insert (ascii "Date") date).insert (ascii "Connection") (ascii "close") := by
  rw [dated, addHeader_headers (by decide), addHeader_headers (by decide)]

theorem dated_setCookies (date : Bytes) (r : Response) : (dated date r).setCookies = r.setCookies := by
  rw [dated, addHeader_setCookies (by decide), addHeader_setCookies (by decide)]

theorem finished_headers (date contentType : Bytes) (r : Response) : (finished date contentType r).headers =
    (((r.headers.insert (ascii "Content-Type") contentType).insert (ascii "Content-Length")
      (decimal r.responseDataStore.getSize)).insert (ascii "Date") date).insert (ascii "Connection") (ascii "close") := by
  show (dated _ _).headers = _
  rw [dated_headers, addHeader_headers (by decide), addHeader_headers (by decide)]

theorem finished_setCookies (date contentType : Bytes) (r : Response) :
    (finished date contentType r).setCookies = r.setCookies := by
  show (dated _ _).setCookies = _
  rw [dated_setCookies, addHeader_setCookies (by decide), addHeader_setCookies (by decide)]

theorem finished_eq (date contentType : Bytes) (r : Response) :
    finished date contentType r = { r with
      headers := (finished date contentType r).headers, setCookies := r.setCookies
      headerBuffer := (finished date contentType r).headerBuffer, responseState := .SENDING_RES_HEAD } := by
  have hsame : SameButHeaders r (dated date (addHeader (ascii "Content-Length") (decimal r.responseDataStore.getSize)
      (addHeader (ascii "Content-Type") contentType r))) :=
    ((sameButHeaders_addHeader _ _ _).trans (sameButHeaders_addHeader _ _ _)).trans (sameButHeaders_dated _ _)
  have hcookies := finished_setCookies date contentType r
  rw [SameButHeaders] at hsame
  unfold finished startHead at hcookies ⊢
  rw [hsame] at hcookies ⊢
  exact congrArg (fun c => ({ r with headers := _, setCookies := c, headerBuffer := _, responseState := _ } : Response)) hcookies

end Response

end LeftHookRoll
