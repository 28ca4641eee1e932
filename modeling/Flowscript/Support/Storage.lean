-- The code that keeps values in script properties and remembers the items
-- that were handled.

namespace Flowscript.Support

/-- The lines of the code for storage. -/
def storageLines : List String := [
  "/**",
  " * Storage helper functions",
  " */",
  "",
  "/**",
  " * JSON values in script properties.",
  " */",
  "const SecureStorage = \x7b",
  "  set: function (key, value) \x7b",
  "    PropertiesService.getScriptProperties().setProperty(key, JSON.stringify(value));",
  "  \x7d,",
  "",
  "  get: function (key, defaultValue) \x7b",
  "    const fallback = defaultValue === undefined ? null : defaultValue;",
  "    const value = PropertiesService.getScriptProperties().getProperty(key);",
  "    return value === null ? fallback : safeJsonParse(value, fallback);",
  "  \x7d,",
  "",
  "  remove: function (key) \x7b",
  "    PropertiesService.getScriptProperties().deleteProperty(key);",
  "  \x7d,",
  "",
  "  has: function (key) \x7b",
  "    return PropertiesService.getScriptProperties().getProperty(key) !== null;",
  "  \x7d,",
  "",
  "  setMultiple: function (values) \x7b",
  "    const serialized = \x7b\x7d;",
  "    Object.keys(values).forEach(function (key) \x7b",
  "      serialized[key] = JSON.stringify(values[key]);",
  "    \x7d);",
  "    PropertiesService.getScriptProperties().setProperties(serialized);",
  "  \x7d,",
  "",
  "  getMultiple: function (keys) \x7b",
  "    const result = \x7b\x7d;",
  "    keys.forEach(function (key) \x7b",
  "      result[key] = SecureStorage.get(key, null);",
  "    \x7d);",
  "    return result;",
  "  \x7d",
  "\x7d;",
  "",
  "/**",
  " * Remember that an item was handled, for ttlHours.",
  " */",
  "function markProcessed(id, ttlHours) \x7b",
  "  const hours = ttlHours === undefined ? 24 : ttlHours;",
  "  SecureStorage.set('processed_' + id, \x7b",
  "    processedAt: Date.now(),",
  "    expiresAt: Date.now() + hours * 60 * 60 * 1000",
  "  \x7d);",
  "\x7d",
  "",
  "function isAlreadyProcessed(id) \x7b",
  "  const key = 'processed_' + id;",
  "  const entry = SecureStorage.get(key, null);",
  "  if (!entry) \x7b",
  "    return false;",
  "  \x7d",
  "  if (Date.now() > entry.expiresAt) \x7b",
  "    SecureStorage.remove(key);",
  "    return false;",
  "  \x7d",
  "  return true;",
  "\x7d",
  "",
  "/**",
  " * Drop expired dedup markers.",
  " */",
  "function cleanupExpiredEntries() \x7b",
  "  const properties = PropertiesService.getScriptProperties();",
  "  const all = properties.getProperties();",
  "  let removed = 0;",
  "  Object.keys(all).forEach(function (key) \x7b",
  "    if (key.indexOf('processed_') !== 0) \x7b",
  "      return;",
  "    \x7d",
  "    const entry = safeJsonParse(all[key], null);",
  "    if (!entry || Date.now() > entry.expiresAt) \x7b",
  "      properties.deleteProperty(key);",
  "      removed++;",
  "    \x7d",
  "  \x7d);",
  "  return removed;",
  "\x7d"]

end Flowscript.Support
