import NestQueueExample.Config.Env
import NestQueueExample.Foundations.UrlOrigin

/-!
# The allowed web origin

The origin that CORS allows is checked as a URL and stored as the origin of
that URL. It is the origin of pages, and stable under another parse, exactly
when the URL has a tuple origin: a host and a port without a scheme are a URL
too, whose origin is `null`.
-/

namespace NestQueueExample.Config

/-- The stored value is the origin of pages, and it is kept when it is parsed
again. -/
structure StableOrigin (platform : Platform) (origin : String) : Prop where
  tuple : IsTupleOrigin origin
  ne_null : origin ≠ "null"
  reparsed : platform.zod.safeParse (webOriginSchema platform.newURL) (.string origin) = .ok origin

section Stored

variable {platform : Platform} {source : JsValue} {env : AppEnv}

theorem webOrigin_parsed (hzod : platform.zod.Documented)
    (h : parseEnv platform source = .ok env) :
    platform.zod.safeParse (webOriginSchema platform.newURL) (source.read "WEB_ORIGIN") =
      .ok env.WEB_ORIGIN := by
  obtain ⟨⟨_, _, _, _, _, _, _, _, _, _, _, origin, _⟩, hfields, rfl⟩ :=
    hzod.object_ok (parseEnv_ok_iff.mp h)
  obtain ⟨-, -, -, -, -, -, -, -, -, -, -, horigin, -⟩ := hfields
  exact horigin

/-- A given text is accepted when it is a URL, and its origin is returned. -/
theorem webOriginSchema_string_iff (hchecks : platform.zod.Checks)
    (hcomposes : platform.zod.Composes) {text origin : String} :
    platform.zod.safeParse (webOriginSchema platform.newURL) (.string text) = .ok origin ↔
      ∃ u, platform.newURL text = some u ∧ Url.origin platform.newURL u = origin := by
  have hgiven : JsValue.string text ≠ .undefined := by simp
  rw [webOriginSchema, hcomposes.transform_iff, hcomposes.default_given hgiven]
  simp only [hchecks.string_iff, List.forall_mem_singleton, StringCheck.holds]
  constructor
  · rintro ⟨_, ⟨⟨⟩, hurl⟩, horigin⟩
    obtain ⟨u, hu⟩ := Option.isSome_iff_exists.mp hurl
    exact ⟨u, hu, by simpa [hu] using horigin⟩
  · rintro ⟨u, hu, horigin⟩
    exact ⟨text, ⟨rfl, by simp [hu]⟩, by simp [hu, horigin]⟩

/-- A text that is accepted is stored as a stable origin of pages exactly when
the URL that it is parsed into has a tuple origin. -/
theorem webOrigin_stable_iff (hzod : platform.zod.Documented) (hchecks : platform.zod.Checks)
    (hcomposes : platform.zod.Composes) {IsSerialized : Host → Prop}
    (hhosts : platform.newURL.SerializesHosts IsSerialized) {text : String}
    (htext : source.read "WEB_ORIGIN" = .string text)
    (h : parseEnv platform source = .ok env) :
    StableOrigin platform env.WEB_ORIGIN ↔
      ∃ u, platform.newURL text = some u ∧ u.HasTupleOrigin platform.newURL := by
  have hparsed := webOrigin_parsed hzod h
  rw [htext, webOriginSchema_string_iff hchecks hcomposes] at hparsed
  obtain ⟨u, hu, horigin⟩ := hparsed
  constructor
  · intro hstable
    refine ⟨u, hu, ?_⟩
    by_contra hopaque
    exact hstable.ne_null (by rw [← horigin, Url.origin_eq_null hopaque])
  · rintro ⟨_, hu', htuple⟩
    obtain rfl := Option.some.inj (hu.symm.trans hu')
    obtain ⟨text', w, hw, hspecial, hw_origin⟩ := htuple.exists_special hu
    obtain ⟨again, hagain, hagain_origin⟩ := origin_tupleOrigin hhosts hw hspecial
    have hisTuple := isTupleOrigin_tupleOrigin hhosts hw hspecial
    rw [← horigin, hw_origin]
    exact ⟨hisTuple, hisTuple.ne_null,
      (webOriginSchema_string_iff hchecks hcomposes).mpr ⟨again, hagain, hagain_origin⟩⟩

end Stored

def originSource (text : String) : JsValue := .object [(.own "WEB_ORIGIN", .string text)]

/-- The platform with a parser that asks for host names. -/
def hostPlatform : Platform := { defaultPlatform with newURL := newURLWithHost }

theorem parseEnv_originSource {text origin : String}
    (h : (newURLWithHost text).map (Url.origin newURLWithHost) = some origin) :
    parseEnv hostPlatform (originSource text) = .ok { defaultEnv with WEB_ORIGIN := origin } := by
  have hurl : (newURLWithHost text).isSome = true := by
    obtain ⟨u, hu, -⟩ := Option.map_eq_some_iff.mp h
    simp [hu]
  have hchecks : [StringCheck.regex fun value ↦ (newURLWithHost value).isSome].all
      (fun check ↦ check.holds text) = true := by
    simpa [StringCheck.holds] using hurl
  have hstored : ((newURLWithHost text).map (Url.origin newURLWithHost)).getD "" = origin := by
    rw [h, Option.getD_some]
  rw [parseEnv_ok_iff]
  simp (disch := decide) only [hostPlatform, defaultPlatform, Zod.ofParse, envSchema, originSource,
    Schema.parse, Fields.parse, JsValue.read_nil, JsValue.read_own, JsValue.read_own_of_ne, hchecks,
    styleSchema, modeSchema, webhookFailuresSchema, webOriginSchema, booleanFlag, if_true,
    Except.map, hstored, defaultEnv]

theorem stableOrigin_shop : StableOrigin hostPlatform "https://shop.example.com:8443" := by
  have horigin : (newURLWithHost "https://user@shop.example.com:8443/cart?step=1").map
      (Url.origin newURLWithHost) = some "https://shop.example.com:8443" := by
    decide +kernel
  have hscheme : (newURLWithHost "https://user@shop.example.com:8443/cart?step=1").map
      Url.scheme = some "https" := by
    decide +kernel
  obtain ⟨u, hu, hhttps⟩ := Option.map_eq_some_iff.mp hscheme
  exact (webOrigin_stable_iff (Zod.documented_ofParse _) (Zod.checks_ofParse _)
    (Zod.composes_ofParse _) serializesHosts_newURLWithHost JsValue.read_own
    (parseEnv_originSource horigin)).mpr
      ⟨u, hu, Or.inl (Url.special_of_http (Or.inr hhttps))⟩

/-- A host and a port without a scheme are a URL, whose origin is `null`. -/
theorem schemeless_origin_null :
    parseEnv hostPlatform (originSource "localhost:3000") =
        .ok { defaultEnv with WEB_ORIGIN := "null" } ∧
      ¬ StableOrigin hostPlatform "null" := by
  exact ⟨parseEnv_originSource (by decide +kernel), fun h ↦ h.ne_null rfl⟩

end NestQueueExample.Config
