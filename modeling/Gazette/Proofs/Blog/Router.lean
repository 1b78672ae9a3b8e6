import Gazette.Blog.App
import Gazette.Proofs.Outcome

set_option autoImplicit false

/-! # Which handler serves a message

Adding routes with different paths never fails, and each path is then served by the handler that
it was added with (`Router.handler?_addAll`). So an ordinary request goes to the handler of its
kind, and the queue reaches the handler of scheduled deletions and no other.
-/

namespace Gazette

namespace Router

theorem lookup_route (p path : String) (handler : Handler) (rest : List (String × Handler)) :
    List.lookup p ((path, handler) :: rest) =
      if p = path then some handler else rest.lookup p := by
  by_cases same : p = path
  · rw [if_pos same, List.lookup_cons, beq_iff_eq.2 same]
  · rw [if_neg same, List.lookup_cons, beq_false_of_ne same]

theorem lookup_insertRoute {path : String} {routes : List (String × Handler)}
    (h : routes.lookup path = none) (handler : Handler) (p : String) :
    (insertRoute path handler routes).lookup p =
      if p = path then some handler else routes.lookup p := by
  induction routes with
  | nil => exact lookup_route p path handler []
  | cons route rest ih =>
    obtain ⟨first, served⟩ := route
    rw [lookup_route] at h
    by_cases same : path = first
    · rw [if_pos same] at h
      cases h
    · rw [if_neg same] at h
      rw [insertRoute]
      split
      · exact lookup_route p path handler _
      · rw [lookup_route, lookup_route, ih h]
        by_cases found : p = first
        · rw [if_pos found, if_pos found, if_neg (found ▸ Ne.symm same)]
        · rw [if_neg found, if_neg found]

/-- Each of the routes that are added serves its path, and no other path is affected. -/
theorem handler?_addAll {routes : List (String × Handler)} (hnodup : (routes.map (·.1)).Nodup)
    {router : Router} (hfresh : ∀ route ∈ routes, router.handler? route.1 = none)
    (path : String) :
    (router.addAll routes).2.handler? path = (routes.lookup path).or (router.handler? path) := by
  induction routes generalizing router with
  | nil => rfl
  | cons route rest ih =>
    obtain ⟨first, handler⟩ := route
    rw [List.map_cons, List.nodup_cons] at hnodup
    have unserved : ∀ route ∈ rest, route.1 ≠ first := by
      rintro route hroute rfl
      exact hnodup.1 (List.mem_map.2 ⟨route, hroute, rfl⟩)
    have vacant : router.handler? first = none := hfresh _ List.mem_cons_self
    have added : router.add first handler =
        .ok ⟨insertRoute first handler router.routes⟩ := by
      rw [add, hasRoute, vacant]
      rfl
    -- the first path is free, so its route is added, and the others stay free after it
    have handlers := lookup_insertRoute vacant handler
    have fresh : ∀ route ∈ rest,
        Router.handler? ⟨insertRoute first handler router.routes⟩ route.1 = none := by
      intro route hroute
      show List.lookup route.1 (insertRoute first handler router.routes) = none
      rw [handlers, if_neg (unserved route hroute)]
      exact hfresh route (List.mem_cons_of_mem _ hroute)
    rw [addAll, added]
    show (Router.addAll ⟨insertRoute first handler router.routes⟩ rest).2.handler? path = _
    rw [ih hnodup.2 fresh, lookup_route]
    show (rest.lookup path).or (List.lookup path (insertRoute first handler router.routes)) = _
    rw [handlers]
    by_cases same : path = first
    · have absent : rest.lookup path = none := by
        rw [same, List.lookup_eq_none_iff]
        intro route hroute
        exact bne_iff_ne.2 (unserved route hroute).symm
      rw [if_pos same, if_pos same, absent]
      rfl
    · rw [if_neg same, if_neg same]
      rfl

theorem route_eq_ok {router : Router} {message : Message} {handler : Handler}
    (h : router.route message = .ok handler) :
    router.handler? message.path = some handler ∧ message.validate = .ok () := by
  unfold route at h
  split at h
  · cases h
  · rename_i found
    split at h
    · cases h
    · rename_i valid
      exact ⟨found.trans (congrArg some (Except.ok.inj h)), valid⟩

end Router

namespace App

theorem handler?_router (app : App) (kind : MessageKind) :
    app.router.handler? kind.path =
      some (Router.mainHandler app.collections app.deletions app.config.gas kind) := by
  rw [router, Router.handler?_addAll]
  · cases kind <;> rfl
  · rw [Router.mainRoutes, List.map_map]
    show (MessageKind.all.map MessageKind.path).Nodup
    decide
  · exact fun _ _ => rfl

theorem handler?_taskRouter (app : App) (path : String) :
    app.taskRouter.handler? path =
      if path = MessageKind.deleteArticle.path
      then some (Handler.deleteScheduledArticle app.collections) else none := by
  rw [taskRouter, Router.handler?_addAll]
  · rw [Router.taskRoutes, Router.lookup_route]
    split <;> rfl
  · exact List.nodup_cons.2 ⟨List.not_mem_nil, List.nodup_nil⟩
  · exact fun _ _ => rfl

/-- A message that is routed is valid, and goes to the handler of its kind. -/
theorem route_eq_ok {app : App} {message : Message} {handler : Handler}
    (h : app.router.route message = .ok handler) :
    handler = Router.mainHandler app.collections app.deletions app.config.gas message.kind
      ∧ message.validate = .ok () := by
  obtain ⟨found, valid⟩ := Router.route_eq_ok h
  exact ⟨Option.some.inj (found.symm.trans (app.handler?_router message.kind)), valid⟩

/-- A request that succeeds is valid and was served by the handler of its kind. -/
theorem router_deliver_eq_ok {app : App} {ctx : Context} {message : Message}
    {answer : Option RecordId} {store after : Store}
    (h : store.perform (app.router.deliver ctx message) = (.ok answer, after)) :
    message.validate = .ok () ∧
      store.perform ((Router.mainHandler app.collections app.deletions app.config.gas
        message.kind).deliver ctx message) = (.ok answer, after) := by
  unfold Router.deliver at h
  obtain ⟨handler, hroute, hrun⟩ := Store.perform_read_bind_eq_ok.1 h
  obtain ⟨rfl, valid⟩ := route_eq_ok hroute
  exact ⟨valid, hrun⟩

end App

end Gazette
