import OutlineServer.Proofs.Server.History

/-!
# What a failed request leaves behind

A request fails before its tool is called, inside the tool, or after it, because a response is
measured when the tool is done.  The first two leave the workspace alone.  The third is harmless for
questions; an accepted document event has updated the workspace by then, and the update stays
although the response says that the request was blocked (`failure_keeps_workspace`).
-/
namespace OutlineServer

namespace Server

theorem limitResponse_of_not_ok {s : Server} {id : Text} {result : Json}
    (h : (s.limitResponse (.success id result)).outcome.isOk = false) :
    s.limitResponse (.success id result) = .blocked id .responseTooLarge := by
  rw [limitResponse_eq] at h ⊢
  split
  · rename_i hfits
    rw [if_pos hfits] at h
    cases h
  · rfl

theorem receive_of_accepted_not_ok {s : Server} {r : Incoming} {u : Update}
    (haccepted : accepted? s.config.limits r = some u)
    (hfail : (s.receive r).1.outcome.isOk = false) :
    (s.receive r).1 = .blocked (s.receive r).1.requestId .responseTooLarge := by
  obtain ⟨tool, arguments, -, hcall, -⟩ := accepted?_eq_some.1 haccepted
  obtain ⟨id, s', hconfig, -, -, hreceive⟩ := receive_of_dispatched (s := s) hcall
  rw [← hconfig] at haccepted
  have hdispatch := dispatch_of_accepted hcall haccepted
  rw [hreceive, callTool_of_ok hdispatch] at hfail ⊢
  rw [limitResponse_of_not_ok hfail]
  rfl

/-- **A request that fails leaves the workspace as it was**, with all symbols, completions and ids
in it, unless it is a document event that was accepted.  Such an event fails only by the size of its
response, and the workspace is updated nevertheless. -/
theorem failure_keeps_workspace (s : Server) (r : Incoming)
    (hfail : (s.receive r).1.outcome.isOk = false) :
    (accepted? s.config.limits r = none → (s.receive r).2.workspace = s.workspace)
    ∧ ∀ u, accepted? s.config.limits r = some u →
      (s.receive r).1 = .blocked (s.receive r).1.requestId .responseTooLarge
      ∧ (s.receive r).2.workspace = (s.workspace.update u.document u.text).2 := by
  have hworkspace := s.receive_workspace r
  refine ⟨fun hnone => ?_, fun u hsome => ⟨receive_of_accepted_not_ok hsome hfail, ?_⟩⟩
  · rw [hworkspace, hnone]
  · rw [hworkspace, hsome]

def terse : Server :=
  start { Config.ofRoot { segments := ["work"] } with limits := { responseBytes := 1 } } none ⟨0, 0⟩

def openOneVariable : Json :=
  .object [("id", .str "a"), ("method", .str "document.did_open"),
    ("params", .object [("doc_id", .str "d"), ("text", .str "var x")])]

/-- A server that may send one octet fails to answer a question, and its workspace stays. -/
theorem failure_keeps_workspace_of_status :
    (terse.receive (.value (.object [("method", .str "server.status")]))).1.outcome.isOk = false
    ∧ (terse.receive (.value (.object [("method", .str "server.status")]))).2.workspace
      = terse.workspace :=
  have hfail : (terse.receive
      (.value (.object [("method", .str "server.status")]))).1.outcome.isOk = false := by
    decide +kernel
  ⟨hfail, (failure_keeps_workspace terse _ hfail).1 (by decide +kernel)⟩

/-- Not every failed request leaves the symbols as they were: opening a document on a server that may
send one octet is answered as blocked, and the document is there. -/
theorem blocked_open_changes_symbols :
    ¬ ∀ (s : Server) (payload : Json), (s.handle payload).1.outcome.isOk = false →
      ∀ document, (s.handle payload).2.workspace.symbols document = s.workspace.symbols document := by
  intro h
  have hsymbols := congrArg List.length (h terse openOneVariable (by decide +kernel) "d")
  revert hsymbols
  decide +kernel

end Server

end OutlineServer
