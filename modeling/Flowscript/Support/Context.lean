-- The code that a workflow runs with: look-up in the context, templates,
-- dates and retries, and the rate limiter as a part of its own.

namespace Flowscript.Support

/-- The lines of the general support code. -/
def contextLines : List String := [
  "/**",
  " * Runtime helper functions",
  " */",
  "",
  "/**",
  " * Look up a dotted path (\"results.n1.items.0.id\") in the context.",
  " * Returns undefined when any segment is missing.",
  " */",
  "function getContextValue(context, path) \x7b",
  "  if (!path) \x7b",
  "    return undefined;",
  "  \x7d",
  "  const parts = String(path).trim().split('.');",
  "  let current = context;",
  "  for (let i = 0; i < parts.length; i++) \x7b",
  "    if (current !== null && typeof current === 'object' && parts[i] in current) \x7b",
  "      current = current[parts[i]];",
  "    \x7d else \x7b",
  "      return undefined;",
  "    \x7d",
  "  \x7d",
  "  return current;",
  "\x7d",
  "",
  "/**",
  " * Replace \x7b\x7bpath\x7d\x7d and $\x7bpath\x7d placeholders with context values.",
  " * Unknown paths are left as written.",
  " */",
  "function resolveTemplate(template, context) \x7b",
  "  if (typeof template !== 'string') \x7b",
  "    return template;",
  "  \x7d",
  "  return " ++
    "template.replace(/\\\x7b\\\x7b([^\x7b\x7d]+)\\\x7d\\\x7d" ++
    "|\\$\\\x7b([^\x7b\x7d]+)\\\x7d/g, function (match, braced, dollar) \x7b",
  "    const value = getContextValue(context, (braced || dollar).trim());",
  "    if (value === undefined) \x7b",
  "      return match;",
  "    \x7d",
  "    return typeof value === 'string' ? value : JSON.stringify(value);",
  "  \x7d);",
  "\x7d",
  "",
  "/**",
  " * Resolve every string inside a nested object or array.",
  " */",
  "function resolveObject(value, context) \x7b",
  "  if (typeof value === 'string') \x7b",
  "    return resolveTemplate(value, context);",
  "  \x7d",
  "  if (Array.isArray(value)) \x7b",
  "    return value.map(function (item) \x7b return resolveObject(item, context); \x7d);",
  "  \x7d",
  "  if (value !== null && typeof value === 'object') \x7b",
  "    const resolved = \x7b\x7d;",
  "    Object.keys(value).forEach(function (key) \x7b",
  "      resolved[key] = resolveObject(value[key], context);",
  "    \x7d);",
  "    return resolved;",
  "  \x7d",
  "  return value;",
  "\x7d",
  "",
  "/**",
  " * JSON.parse with a fallback value instead of an exception.",
  " */",
  "function safeJsonParse(text, fallback) \x7b",
  "  try \x7b",
  "    return JSON.parse(text);",
  "  \x7d catch (e) \x7b",
  "    return fallback === undefined ? null : fallback;",
  "  \x7d",
  "\x7d",
  "",
  "function formatDate(date) \x7b",
  "  return (date || new Date()).toISOString();",
  "\x7d",
  "",
  "function generateCorrelationId() \x7b",
  "  return Utilities.getUuid();",
  "\x7d",
  "",
  "/**",
  " * Call fn, retrying with exponential backoff.",
  " */",
  "function retryWithBackoff(fn, maxRetries, baseDelay) \x7b",
  "  maxRetries = maxRetries || 3;",
  "  baseDelay = baseDelay || 1000;",
  "  let lastError;",
  "  for (let attempt = 0; attempt < maxRetries; attempt++) \x7b",
  "    try \x7b",
  "      return fn();",
  "    \x7d catch (error) \x7b",
  "      lastError = error;",
  "      if (attempt < maxRetries - 1) \x7b",
  "        const delay = baseDelay * Math.pow(2, attempt);",
  "        Logger.log('Retry attempt ' + (attempt + 1) + ' failed, waiting ' + delay + " ++
    "'ms: ' + error.toString());",
  "        Utilities.sleep(delay);",
  "      \x7d",
  "    \x7d",
  "  \x7d",
  "  throw lastError;",
  "\x7d"]

/-- The lines of the rate limiter, which start with an empty one. -/
def rateLimitLines : List String := [
  "",
  "/**",
  " * Fixed-window rate limiter backed by script properties.",
  " * Throws once more than maxRequests calls land in one window.",
  " */",
  "function checkRateLimit(key, maxRequests, windowMs) \x7b",
  "  maxRequests = maxRequests || 100;",
  "  windowMs = windowMs || 60000;",
  "  const now = Date.now();",
  "  const properties = PropertiesService.getScriptProperties();",
  "  const storageKey = 'rate_limit_' + key;",
  "  const state = safeJsonParse(properties.getProperty(storageKey), \x7b\x7d) || \x7b\x7d;",
  "  if (!state.window || now > state.window + windowMs) \x7b",
  "    state.window = now;",
  "    state.count = 1;",
  "  \x7d else \x7b",
  "    state.count = (state.count || 0) + 1;",
  "  \x7d",
  "  properties.setProperty(storageKey, JSON.stringify(state));",
  "  if (state.count > maxRequests) \x7b",
  "    throw new Error('Rate limit exceeded for ' + key + ': ' + state.count + '/' + " ++
    "maxRequests + ' requests');",
  "  \x7d",
  "  return state;",
  "\x7d"]

end Flowscript.Support
