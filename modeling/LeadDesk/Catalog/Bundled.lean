import LeadDesk.Workflow.Basic
/-!
# Bundled workflows

The three workflows that come with the desk. A new contact is taken in, researched and
scored, and brought before the sales team; each workflow ends with the event that sets
off the next.
-/

namespace LeadDesk

namespace Catalog

/-- The placeholder of a path, as text. -/
def slotText (path : String) : String := "\x7b\x7b" ++ path ++ "\x7d\x7d"

/-- The placeholder of a path. -/
def slot (path : String) : Json := .string (slotText path)

/-- Lines of text, each with its end. -/
def lines (ls : List String) : Json := .string (String.join (ls.map (· ++ "\n")))

/-- The steps that take in a new contact: extract its fields, drop spam, and pass it on as new or
as known. -/
def intakeSteps : List WorkflowStep := [
  { order := 1
    name := "Extract All Fields"
    description := "Parse and extract all available contact information from any format"
    action := .prompt
    output := some "extracted_data"
    config := [
      ("output_type", "json"),
      ("max_tokens", 500),
      ("prompt_template", lines [
        "Extract all contact information from this input. Be thorough - pull " ++
          "everything available.",
        "",
        "Input:",
        "\x7b\x7bevent.payload\x7d\x7d",
        "",
        "Extract and return JSON with these fields (use null if not found):",
        "\x7b",
        "  \"first_name\": string,",
        "  \"last_name\": string,",
        "  \"email\": string,",
        "  \"phone\": string,",
        "  \"company\": string,",
        "  \"title\": string,",
        "  \"linkedin_url\": string,",
        "  \"website\": string,",
        "  \"message\": string,",
        "  \"source\": string,",
        "  \"request_type\": string (sales|support|partnership|other),",
        "  \"additional_fields\": object",
        "\x7d"])] },
  { order := 2
    name := "Spam Check"
    description := "Detect spam or bot submissions"
    action := .prompt
    output := some "spam_check"
    config := [
      ("output_type", "json"),
      ("max_tokens", 150),
      ("model", "haiku"),
      ("prompt_template", lines [
        "Analyze this contact for spam signals:",
        "",
        "\x7b\x7bextracted_data\x7d\x7d",
        "",
        "Check for:",
        "- Gibberish names or emails",
        "- Known spam domains",
        "- Suspicious patterns",
        "- Bot-like behavior",
        "",
        "Respond with JSON:",
        "\x7b\"is_spam\": boolean, \"confidence\": number 0-1, \"reason\": string\x7d"])] },
  { order := 3
    name := "Handle Spam"
    description := "Delete spam contacts"
    action := .condition
    config := [
      ("condition",
        "\x7b\x7bspam_check.is_spam\x7d\x7d == true && " ++
          "\x7b\x7bspam_check.confidence\x7d\x7d > 0.7"),
      ("on_true", .object [
        ("action", "delete_contact"),
        ("contact_id", slot "event.entity_id"),
        ("reason", slot "spam_check.reason"),
        ("then", "emit_event"),
        ("event_type", "intake.spam_deleted"),
        ("finally", "stop")]),
      ("on_false", .object [
        ("action", "continue")])] },
  { order := 4
    name := "Check Duplicates"
    description := "Look for an existing contact with the same email"
    action := .toolCall
    output := some "existing_contact"
    config := [
      ("tool_name", "search_contacts"),
      ("input_mapping", .object [
        ("email", slot "extracted_data.email"),
        ("exact_match", .bool true),
        ("exclude_id", slot "event.entity_id")])] },
  { order := 5
    name := "Merge Into Existing"
    description := "Fold new data into the existing contact and drop the duplicate"
    action := .toolCall
    guards := [⟨slotText "existing_contact.count", ">", 0⟩]
    config := [
      ("tool_name", "merge_contact_data"),
      ("input_mapping", .object [
        ("existing_contact_id", slot "existing_contact.id"),
        ("new_contact_id", slot "event.entity_id"),
        ("new_data", slot "extracted_data")])] },
  { order := 6
    name := "Route Existing to Contact Agent"
    description := "Send updated contact to Contact Agent"
    action := .toolCall
    guards := [⟨slotText "existing_contact.count", ">", 0⟩]
    config := [
      ("tool_name", "emit_event"),
      ("input_mapping", .object [
        ("event_type", "intake.existing_updated"),
        ("entity_type", "contact"),
        ("entity_id", slot "existing_contact.id"),
        ("payload", .object [
          ("source", "intake"),
          ("request_type", slot "extracted_data.request_type"),
          ("message", slot "extracted_data.message")])])] },
  { order := 7
    name := "Save New Contact"
    description := "Store extracted data on new contact"
    action := .toolCall
    guards := [⟨slotText "existing_contact.count", "==", 0⟩]
    config := [
      ("tool_name", "update_contact"),
      ("input_mapping", .object [
        ("contact_id", slot "event.entity_id"),
        ("first_name", slot "extracted_data.first_name"),
        ("last_name", slot "extracted_data.last_name"),
        ("email", slot "extracted_data.email"),
        ("phone", slot "extracted_data.phone"),
        ("title", slot "extracted_data.title"),
        ("linkedin_url", slot "extracted_data.linkedin_url")])] },
  { order := 8
    name := "Route New to SDR Agent"
    description := "Send new contact to SDR Agent for enrichment"
    action := .toolCall
    guards := [⟨slotText "existing_contact.count", "==", 0⟩]
    config := [
      ("tool_name", "emit_event"),
      ("input_mapping", .object [
        ("event_type", "intake.new_contact"),
        ("entity_type", "contact"),
        ("entity_id", slot "event.entity_id"),
        ("payload", .object [
          ("source", "intake"),
          ("extracted_data", slot "extracted_data")])])] }]

/-- The steps that research and score a new contact. -/
def researchSteps : List WorkflowStep := [
  { order := 1
    name := "Load Contact"
    action := .toolCall
    output := some "contact"
    config := [
      ("tool_name", "get_contact"),
      ("input_mapping", .object [
        ("contact_id", slot "event.entity_id")])] },
  { order := 2
    name := "Check Email Type"
    description := "Determine if email is business or personal"
    action := .toolCall
    output := some "email_type"
    config := [
      ("tool_name", "classify_email"),
      ("input_mapping", .object [
        ("email", slot "contact.email")])] },
  { order := 3
    name := "PDL Enrichment"
    description := "Get work email and additional data from PDL"
    action := .toolCall
    guards := [⟨slotText "email_type.is_personal", "==", .bool true⟩]
    output := some "pdl_data"
    onFailure := .goOn
    config := [
      ("tool_name", "enrich_person_pdl"),
      ("input_mapping", .object [
        ("email", slot "contact.email"),
        ("first_name", slot "contact.first_name"),
        ("last_name", slot "contact.last_name"),
        ("linkedin_url", slot "contact.linkedin_url")])] },
  { order := 4
    name := "Update from PDL"
    action := .toolCall
    guards := [⟨slotText "pdl_data.success", "==", .bool true⟩]
    config := [
      ("tool_name", "update_contact"),
      ("input_mapping", .object [
        ("contact_id", slot "contact.id"),
        ("work_email", slot "pdl_data.data.work_email"),
        ("personal_email", slot "contact.email"),
        ("title", slot "pdl_data.data.title"),
        ("linkedin_url", slot "pdl_data.data.linkedin_url"),
        ("phone", slot "pdl_data.data.phone")])] },
  { order := 5
    name := "Reload Contact"
    action := .toolCall
    output := some "contact"
    config := [
      ("tool_name", "get_contact"),
      ("input_mapping", .object [
        ("contact_id", slot "event.entity_id")])] },
  { order := 6
    name := "Initial Score"
    description := "Calculate initial lead score based on available data"
    action := .prompt
    output := some "initial_score"
    config := [
      ("output_type", "json"),
      ("max_tokens", 300),
      ("prompt_template", lines [
        "Score this lead from 0-10 based on available information.",
        "",
        "**Contact:**",
        "Name: \x7b\x7bcontact.first_name\x7d\x7d \x7b\x7bcontact.last_name\x7d\x7d",
        "Email: \x7b\x7bcontact.work_email || contact.email\x7d\x7d",
        "Title: \x7b\x7bcontact.title\x7d\x7d",
        "Company: \x7b\x7bcontact.company_name\x7d\x7d",
        "LinkedIn: \x7b\x7bcontact.linkedin_url\x7d\x7d",
        "",
        "**Scoring Criteria:**",
        "- Title seniority (C-level, VP, Director = high)",
        "- Business email vs personal",
        "- Company domain (enterprise = higher)",
        "- Role relevance",
        "- Data completeness",
        "",
        "Respond with JSON:",
        "\x7b\"score\": <0-10>, \"breakdown\": \x7b\"title_seniority\": <0-3>, " ++
          "\"email_quality\": <0-2>, \"company_signal\": <0-3>, \"data_quality\": " ++
          "<0-2>\x7d, \"reasons\": [<string>], \"enrichment_tier\": \"deep|light|none\"\x7d",
        "",
        "Tiers: 7-10=deep, 5-6=light, 0-4=none"])] },
  { order := 7
    name := "Save Initial Score"
    action := .toolCall
    config := [
      ("tool_name", "update_contact"),
      ("input_mapping", .object [
        ("contact_id", slot "contact.id"),
        ("score", slot "initial_score.score"),
        ("score_breakdown", slot "initial_score.breakdown"),
        ("enrichment_tier", slot "initial_score.enrichment_tier")])] },
  { order := 8
    name := "Extract Domain"
    action := .toolCall
    guards := [⟨slotText "initial_score.enrichment_tier", "in", .array ["deep", "light"]⟩]
    output := some "domain_info"
    config := [
      ("tool_name", "extract_domain"),
      ("input_mapping", .object [
        ("email", slot "contact.work_email || contact.email")])] },
  { order := 9
    name := "Hunter Verify"
    description := "Verify email deliverability"
    action := .toolCall
    guards := [⟨slotText "initial_score.enrichment_tier", "in", .array ["deep", "light"]⟩]
    output := some "hunter_verify"
    onFailure := .goOn
    config := [
      ("tool_name", "verify_email_hunter"),
      ("input_mapping", .object [
        ("email", slot "contact.work_email || contact.email")])] },
  { order := 10
    name := "Perplexity Research"
    description := "Company research (depth based on tier)"
    action := .toolCall
    guards := [⟨slotText "initial_score.enrichment_tier", "in", .array ["deep", "light"]⟩]
    output := some "perplexity_data"
    onFailure := .goOn
    config := [
      ("tool_name", "research_company_perplexity"),
      ("input_mapping", .object [
        ("company_name", slot "contact.company_name || domain_info.company_name"),
        ("domain", slot "domain_info.domain"),
        ("depth", slot "initial_score.enrichment_tier")])] },
  { order := 11
    name := "LinkedIn Scrape"
    description := "Get LinkedIn posts and profile data (max 10 posts)"
    action := .toolCall
    guards := [⟨slotText "initial_score.enrichment_tier", "==", "deep"⟩,
      ⟨slotText "contact.linkedin_url", "is_not_empty", .null⟩]
    output := some "linkedin_data"
    onFailure := .goOn
    config := [
      ("tool_name", "scrape_linkedin_profile"),
      ("input_mapping", .object [
        ("linkedin_url", slot "contact.linkedin_url"),
        ("limit", 10)])] },
  { order := 12
    name := "Apollo Enrich"
    action := .toolCall
    guards := [⟨slotText "initial_score.enrichment_tier", "==", "deep"⟩]
    output := some "apollo_data"
    onFailure := .goOn
    config := [
      ("tool_name", "enrich_person_apollo"),
      ("input_mapping", .object [
        ("email", slot "contact.work_email || contact.email"),
        ("first_name", slot "contact.first_name"),
        ("last_name", slot "contact.last_name"),
        ("domain", slot "domain_info.domain")])] },
  { order := 13
    name := "Store Enrichment Data"
    action := .toolCall
    guards := [⟨slotText "initial_score.enrichment_tier", "in", .array ["deep", "light"]⟩]
    config := [
      ("tool_name", "update_contact"),
      ("input_mapping", .object [
        ("contact_id", slot "contact.id"),
        ("enrichment_data", .object [
          ("hunter", slot "hunter_verify"),
          ("perplexity", slot "perplexity_data"),
          ("linkedin", slot "linkedin_data"),
          ("apollo", slot "apollo_data")])])] },
  { order := 14
    name := "Deep Analysis"
    description := "Synthesize all data, generate insights for high-value leads"
    action := .prompt
    guards := [⟨slotText "initial_score.enrichment_tier", "==", "deep"⟩]
    output := some "deep_analysis"
    config := [
      ("output_type", "json"),
      ("max_tokens", 800),
      ("prompt_template", lines [
        "You are analyzing a high-value lead. Synthesize all available data and " ++
          "provide actionable intelligence.",
        "",
        "**Contact:**",
        "\x7b\x7bcontact\x7d\x7d",
        "",
        "**LinkedIn Data:**",
        "\x7b\x7blinkedin_data\x7d\x7d",
        "",
        "**Company Research:**",
        "\x7b\x7bperplexity_data\x7d\x7d",
        "",
        "**Apollo Data:**",
        "\x7b\x7bapollo_data\x7d\x7d",
        "",
        "**Hunter Verification:**",
        "\x7b\x7bhunter_verify\x7d\x7d",
        "",
        "Respond with JSON:",
        "\x7b\"summary\": string, \"talking_points\": [string], \"pain_points\": " ++
          "[string], \"flags\": [string], \"recommended_approach\": string, " ++
          "\"risk_factors\": [string], \"sales_notes\": string\x7d"])] },
  { order := 15
    name := "Store Analysis"
    action := .toolCall
    guards := [⟨slotText "initial_score.enrichment_tier", "==", "deep"⟩]
    config := [
      ("tool_name", "update_contact"),
      ("input_mapping", .object [
        ("contact_id", slot "contact.id"),
        ("flags", slot "deep_analysis.flags"),
        ("sales_notes", slot "deep_analysis.sales_notes"),
        ("notes", slot "deep_analysis.summary")])] },
  { order := 16
    name := "Re-Score"
    action := .prompt
    guards := [⟨slotText "initial_score.enrichment_tier", "==", "deep"⟩]
    output := some "rescore"
    config := [
      ("output_type", "json"),
      ("max_tokens", 200),
      ("prompt_template", lines [
        "Re-evaluate this lead score based on enrichment data.",
        "",
        "**Initial Score:** \x7b\x7binitial_score.score\x7d\x7d/10",
        "**Initial Reasons:** \x7b\x7binitial_score.reasons\x7d\x7d",
        "",
        "**New Information:**",
        "- Deep Analysis: \x7b\x7bdeep_analysis\x7d\x7d",
        "- Email Valid: \x7b\x7bhunter_verify.data.status\x7d\x7d",
        "- LinkedIn Activity: \x7b\x7blinkedin_data.data.recent_posts.length || " ++
          "0\x7d\x7d posts",
        "",
        "Respond with JSON:",
        "\x7b\"new_score\": <0-10>, \"score_change\": <number>, " ++
          "\"adjustment_reasons\": [string]\x7d"])] },
  { order := 17
    name := "Update Final Score"
    action := .toolCall
    guards := [⟨slotText "initial_score.enrichment_tier", "==", "deep"⟩]
    config := [
      ("tool_name", "update_contact"),
      ("input_mapping", .object [
        ("contact_id", slot "contact.id"),
        ("score", slot "rescore.new_score"),
        ("score_breakdown", .object [
          ("initial", slot "initial_score.breakdown"),
          ("adjustments", slot "rescore.adjustment_reasons")])])] },
  { order := 18
    name := "Route to Contact Agent"
    action := .toolCall
    config := [
      ("tool_name", "emit_event"),
      ("input_mapping", .object [
        ("event_type", "sdr.complete"),
        ("entity_type", "contact"),
        ("entity_id", slot "contact.id"),
        ("payload", .object [
          ("score", slot "rescore.new_score || initial_score.score"),
          ("enrichment_tier", slot "initial_score.enrichment_tier"),
          ("flags", slot "deep_analysis.flags || []"),
          ("source", "sdr_agent")])])] }]

/-- The steps that tell the sales team about a scored contact. -/
def contactSteps : List WorkflowStep := [
  { order := 1
    name := "Load Contact"
    action := .toolCall
    output := some "contact_brief"
    config := [
      ("tool_name", "get_contact_brief"),
      ("input_mapping", .object [
        ("contact_id", slot "event.entity_id")])] },
  { order := 2
    name := "Hot Lead Alert"
    action := .toolCall
    guards := [⟨slotText "event.payload.score", ">=", 8⟩]
    config := [
      ("tool_name", "send_notification"),
      ("input_mapping", .object [
        ("channel", "slack"),
        ("template", "hot_lead"),
        ("data", .object [
          ("contact_name",
            "\x7b\x7bcontact_brief.contact.first_name\x7d\x7d " ++
              "\x7b\x7bcontact_brief.contact.last_name\x7d\x7d"),
          ("company", slot "contact_brief.contact.company_name"),
          ("title", slot "contact_brief.contact.title"),
          ("score", slot "event.payload.score"),
          ("flags", slot "event.payload.flags"),
          ("summary", slot "contact_brief.contact.notes")])])] },
  { order := 3
    name := "Warm Lead Alert"
    action := .toolCall
    guards := [⟨slotText "event.payload.score", ">=", 6⟩,
      ⟨slotText "event.payload.score", "<", 8⟩]
    config := [
      ("tool_name", "send_notification"),
      ("input_mapping", .object [
        ("channel", "slack"),
        ("template", "warm_lead"),
        ("data", .object [
          ("contact_name",
            "\x7b\x7bcontact_brief.contact.first_name\x7d\x7d " ++
              "\x7b\x7bcontact_brief.contact.last_name\x7d\x7d"),
          ("company", slot "contact_brief.contact.company_name"),
          ("score", slot "event.payload.score")])])] },
  { order := 4
    name := "Create Follow-up Task"
    action := .toolCall
    guards := [⟨slotText "event.payload.score", ">=", 8⟩]
    config := [
      ("tool_name", "create_task"),
      ("input_mapping", .object [
        ("contact_id", slot "contact_brief.contact.id"),
        ("type", "call"),
        ("priority", 1),
        ("reason", "Hot lead - Score: \x7b\x7bevent.payload.score\x7d\x7d"),
        ("due_date", "today")])] }]

/-- The bundled workflows under the given ids. -/
def bundled (first second third : String) : List Workflow := [
    { id := first
      slug := "intake_agent_v2"
      name := "Intake Agent v2"
      description :=
        "Gatekeeper: extracts all fields, checks spam, dedupes, routes to SDR (new) or " ++
          "Contact (existing)"
      category := some "intake"
      trigger := "contact.created"
      version := 2
      steps := intakeSteps },
    { id := second
      slug := "sdr_agent_v2"
      name := "SDR Agent v2"
      description :=
        "Researcher + Scorer: ensures work email, scores lead, enriches based on tier, " ++
          "deep analysis for high-value, routes to Contact Agent"
      category := some "enrichment"
      trigger := "intake.new_contact"
      version := 2
      steps := researchSteps },
    { id := third
      slug := "contact_agent"
      name := "Contact Agent"
      description :=
        "Notification router: alerts sales for hot leads, queues warm leads, creates " ++
          "follow-up tasks"
      category := some "notification"
      trigger := "sdr.complete"
      steps := contactSteps }]

end Catalog

end LeadDesk
